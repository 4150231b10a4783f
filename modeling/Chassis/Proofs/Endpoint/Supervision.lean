import Chassis.Proofs.Endpoint.Stopping
import Mathlib.Data.List.Basic

/-!
# Endpoints under supervision

> **a run of endpoints comes to the result of the one that ends first, and looks after all of them**
> (`Supervision.supervised`).

`Supervisor` starts all endpoints at once and stops all of them at once. Here the same is followed
task by task: endpoints are started one after another while those before them run, each hands in its
result when it ends, the run takes the first result once all are started and leaves the others where
they are, and a trigger takes the hooks, which then run one after another, each with an ending of
its own. All of this happens in any order. `Inv` is what every step preserves, and the supervised
run in time is one of these runs (`exists_reaches_run`).

That a later trigger stops each endpoint once does not follow from the invariant of a single state:
it is about two states, one before the trigger and one after. What ties them is that from a trigger
on, the hooks that have run and those that are still to run make up one list that never changes
(`stops_of_reaches`). Shutdown is done when none is left that is still to run.
-/

set_option autoImplicit false

namespace Chassis

open Session

/-- What is counted when an endpoint ends. -/
def Supervised.exit (e : Supervised) : Metrics.Event := .endpointExit e.name (isFailedExit e.result)

/-- A supervisor at work: the endpoints that are still to be started, the hooks that a trigger has
taken and that are still to run, how those before them ended, the results that were handed in, the
result that the run has come to, and what was counted. -/
structure Supervision where
  supervisor : Supervisor
  waiting : List Supervised
  taken : List Nat := []
  endings : List HookEnd := []
  inbox : List EndpointResult := []
  returned : Option EndpointResult := none
  counted : List Metrics.Event := []

namespace Session.Shutdown

variable {η : Type}

theorem triggered_addHook (s : Shutdown η) (hook : η) :
    (s.addHook hook).triggered = s.triggered := by
  rw [addHook]
  split <;> rfl

theorem hooks_addHook {s : Shutdown η} (h : s.triggered = false) (hook : η) :
    (s.addHook hook).hooks = hook :: s.hooks := by
  simp [addHook, h]

end Session.Shutdown

namespace Supervisor

/-- Starts one more endpoint, with a hook. -/
def add (s : Supervisor) (e : Supervised) : Supervisor :=
  { s with endpoints := s.endpoints ++ [e], shutdown := s.shutdown.addHook s.endpoints.length }

/-- The results of the endpoints that ended, in that order. -/
def results (s : Supervisor) : List EndpointResult :=
  s.ended.filterMap fun i => s.endpoints[i]?.map Supervised.result

/-- Every endpoint that ended is one that was started. -/
def EndedKnown (s : Supervisor) : Prop := ∀ i ∈ s.ended, i < s.endpoints.length

end Supervisor

namespace Supervision

/-! ## Steps -/

def start (endpoints : List Supervised) (shutdown : Shutdown Nat) : Supervision :=
  { supervisor := { endpoints := [], shutdown }, waiting := endpoints }

def launch (w : Supervision) (e : Supervised) (rest : List Supervised) : Supervision :=
  { w with supervisor := w.supervisor.add e, waiting := rest }

/-- An endpoint ends: that is counted, and its result is handed in unless the run is over. -/
def finish (w : Supervision) (i : Nat) (e : Supervised) : Supervision :=
  { w with
    supervisor := w.supervisor.finish i
    counted := w.counted ++ [e.exit]
    inbox := if w.returned.isSome then w.inbox else w.inbox ++ [e.result] }

/-- The run takes a result for its own, and the others are lost. -/
def receive (w : Supervision) (r : EndpointResult) : Supervision :=
  { w with inbox := [], returned := some r }

def trigger (w : Supervision) : Supervision :=
  { w with
    supervisor := { w.supervisor with shutdown := w.supervisor.shutdown.begin.2.2 }
    taken := w.taken ++ w.supervisor.shutdown.begin.2.1 }

/-- A hook stops its endpoint. However that ends, it is only noted. -/
def stop (w : Supervision) (i : Nat) (rest : List Nat) (ending : HookEnd) : Supervision :=
  { w with
    supervisor := { w.supervisor with stopped := w.supervisor.stopped ++ [i] }
    taken := rest
    endings := w.endings ++ [ending] }

/-- All hooks that a trigger has taken have run. -/
def complete (w : Supervision) : Supervision :=
  { w with supervisor := { w.supervisor with shutdown := w.supervisor.shutdown.finish } }

/-- What can happen during a run and after it. The run takes a result only when all endpoints are
started, an endpoint that serves ends only when it was stopped, and anything can happen between two
hooks. -/
inductive Step : Supervision → Supervision → Prop
  | launch {w : Supervision} {e : Supervised} {rest : List Supervised}
      (next : w.waiting = e :: rest) : Step w (w.launch e rest)
  | finish {w : Supervision} {i : Nat} {e : Supervised}
      (known : w.supervisor.endpoints[i]? = some e) (running : i ∉ w.supervisor.ended)
      (stopped : e.behaviour = .serves → i ∈ w.supervisor.stopped) : Step w (w.finish i e)
  | receive {w : Supervision} {r : EndpointResult} {rest : List EndpointResult}
      (launched : w.waiting = []) (runs : w.returned = none) (first : w.inbox = r :: rest) :
      Step w (w.receive r)
  | trigger (w : Supervision) : Step w w.trigger
  | stop {w : Supervision} {i : Nat} {rest : List Nat} (ending : HookEnd)
      (next : w.taken = i :: rest) : Step w (w.stop i rest ending)
  | complete {w : Supervision} (triggered : w.supervisor.shutdown.triggered = true)
      (ran : w.taken = []) : Step w w.complete

abbrev Reaches : Supervision → Supervision → Prop := Relation.ReflTransGen Step

end Supervision

/-! ## More endpoints -/

namespace Supervisor

variable {s : Supervisor}

/-- What is looked up for the endpoints that ended does not change when another one is started. -/
theorem filterMap_ended_add {α : Type} (f : Supervised → α) (h : s.EndedKnown) (e : Supervised) :
    (s.add e).ended.filterMap (fun i => (s.add e).endpoints[i]?.map f) =
      s.ended.filterMap fun i => s.endpoints[i]?.map f := by
  refine List.filterMap_congr fun i hi => ?_
  have hget : (s.endpoints ++ [e])[i]? = s.endpoints[i]? := List.getElem?_append_left (h i hi)
  rw [← hget]
  rfl

theorem filterMap_ended_finish {α : Type} (f : Supervised → α) {i : Nat} {e : Supervised}
    (h : s.endpoints[i]? = some e) :
    (s.finish i).ended.filterMap (fun i => (s.finish i).endpoints[i]?.map f) =
      s.ended.filterMap (fun i => s.endpoints[i]?.map f) ++ [f e] := by
  have hfinish : (s.finish i).ended = s.ended ++ [i] := rfl
  rw [hfinish, List.filterMap_append]
  simp only [finish, List.filterMap_cons, List.filterMap_nil, h, Option.map_some]

theorem of_head?_results (h : s.EndedKnown) {r : EndpointResult} (hr : s.results.head? = some r) :
    ∃ i e, s.ended.head? = some i ∧ s.endpoints[i]? = some e ∧ e.result = r := by
  rw [results] at hr
  cases hended : s.ended with
  | nil =>
    rw [hended] at hr
    cases hr
  | cons i rest =>
    have hi : i < s.endpoints.length := h i (by simp [hended])
    have he : s.endpoints[i]? = some s.endpoints[i] := List.getElem?_eq_getElem hi
    have hresult : s.endpoints[i]?.map Supervised.result = some s.endpoints[i].result := by
      rw [he, Option.map_some]
    simp only [hended, List.filterMap_cons, hresult] at hr
    exact ⟨i, _, rfl, he, Option.some.inj hr⟩

theorem exists_results (h : s.EndedKnown) (hne : s.ended ≠ []) :
    ∃ r rest, s.results = r :: rest := by
  obtain ⟨i, rest, hended⟩ := List.exists_cons_of_ne_nil hne
  have hi : i < s.endpoints.length := h i (by simp [hended])
  have hresult : s.endpoints[i]?.map Supervised.result = some s.endpoints[i].result := by
    rw [List.getElem?_eq_getElem hi, Option.map_some]
  refine ⟨s.endpoints[i].result, rest.filterMap fun i => s.endpoints[i]?.map Supervised.result, ?_⟩
  simp only [results, hended, List.filterMap_cons, hresult]

/-- Endpoints that are started one after another are the ones that are started at once. -/
theorem foldl_add (endpoints : List Supervised) (s : Supervisor) :
    endpoints.foldl add s = { s with
      endpoints := s.endpoints ++ endpoints
      shutdown := ((List.range endpoints.length).map (s.endpoints.length + ·)).foldl
        (·.addHook ·) s.shutdown } := by
  induction endpoints generalizing s with
  | nil => simp
  | cons e rest ih =>
    rw [List.foldl_cons, ih, add, List.length_cons, List.range_succ_eq_map]
    simp [Function.comp_def, Nat.add_comm, Nat.add_left_comm]

theorem foldl_add_eq_start (endpoints : List Supervised) (shutdown : Shutdown Nat) :
    endpoints.foldl add { endpoints := [], shutdown } =
      (Supervisor.start endpoints shutdown).1 := by
  rw [foldl_add]
  simp [Supervisor.start]

end Supervisor

namespace Supervision

/-! ## The invariant -/

/-- What is so in every state of a run. -/
structure Inv (endpoints : List Supervised) (shutdown : Shutdown Nat) (w : Supervision) :
    Prop where
  inOrder : w.supervisor.endpoints ++ w.waiting = endpoints
  fresh : w.supervisor.shutdown.triggered = false →
    w.supervisor.shutdown.hooks =
        (List.range w.supervisor.endpoints.length).reverse ++ shutdown.hooks ∧
      w.supervisor.stopped = [] ∧ w.taken = []
  endedOnce : w.supervisor.ended.Nodup
  endedKnown : w.supervisor.EndedKnown
  endedStopped : ∀ i ∈ w.supervisor.ended, ∀ e, w.supervisor.endpoints[i]? = some e →
    e.behaviour = .serves → i ∈ w.supervisor.stopped
  counted : w.counted = w.supervisor.exits
  handedIn : w.returned = none → w.inbox = w.supervisor.results
  took : ∀ r, w.returned = some r → w.waiting = [] ∧ w.supervisor.results.head? = some r

namespace Inv

variable {endpoints : List Supervised} {shutdown : Shutdown Nat} {w w' : Supervision}

theorem start (endpoints : List Supervised) (shutdown : Shutdown Nat) :
    Inv endpoints shutdown (Supervision.start endpoints shutdown) where
  inOrder := rfl
  fresh _ := ⟨rfl, rfl, rfl⟩
  endedOnce := List.nodup_nil
  endedKnown := by
    intro i hi
    cases hi
  endedStopped := by
    intro i hi
    cases hi
  counted := rfl
  handedIn _ := rfl
  took := by
    intro r hr
    cases hr

theorem launch (h : Inv endpoints shutdown w) {e : Supervised} {rest : List Supervised}
    (next : w.waiting = e :: rest) : Inv endpoints shutdown (w.launch e rest) where
  inOrder := by
    rw [← h.inOrder, next]
    exact List.append_assoc ..
  fresh := by
    intro htriggered
    have hfresh : w.supervisor.shutdown.triggered = false :=
      (w.supervisor.shutdown.triggered_addHook w.supervisor.endpoints.length) ▸ htriggered
    obtain ⟨hhooks, hstopped, htaken⟩ := h.fresh hfresh
    refine ⟨?_, hstopped, htaken⟩
    calc (w.supervisor.shutdown.addHook w.supervisor.endpoints.length).hooks
      _ = w.supervisor.endpoints.length ::
          ((List.range w.supervisor.endpoints.length).reverse ++ shutdown.hooks) := by
        rw [Shutdown.hooks_addHook hfresh, hhooks]
      _ = (List.range (w.supervisor.endpoints ++ [e]).length).reverse ++ shutdown.hooks := by
        rw [List.length_append, List.length_singleton, List.range_succ, List.reverse_append]
        rfl
  endedOnce := h.endedOnce
  endedKnown := by
    intro i hi
    have hlt := h.endedKnown i hi
    have hlength : (w.launch e rest).supervisor.endpoints.length =
        w.supervisor.endpoints.length + 1 := by simp [Supervision.launch, Supervisor.add]
    omega
  endedStopped := by
    intro i hi e' he'
    have hget : (w.supervisor.endpoints ++ [e])[i]? = w.supervisor.endpoints[i]? :=
      List.getElem?_append_left (h.endedKnown i hi)
    exact h.endedStopped i hi e' (hget ▸ he')
  counted := by
    rw [Supervision.launch, h.counted]
    exact (Supervisor.filterMap_ended_add Supervised.exit h.endedKnown e).symm
  handedIn := by
    intro hopen
    rw [Supervision.launch, h.handedIn hopen]
    exact (Supervisor.filterMap_ended_add Supervised.result h.endedKnown e).symm
  took := by
    intro r hr
    obtain ⟨hnone, -⟩ := h.took r hr
    rw [hnone] at next
    cases next

theorem finish (h : Inv endpoints shutdown w) {i : Nat} {e : Supervised}
    (known : w.supervisor.endpoints[i]? = some e) (running : i ∉ w.supervisor.ended)
    (stopped : e.behaviour = .serves → i ∈ w.supervisor.stopped) :
    Inv endpoints shutdown (w.finish i e) where
  inOrder := h.inOrder
  fresh := h.fresh
  endedOnce := by
    refine List.nodup_append.2 ⟨h.endedOnce, List.pairwise_singleton _ i, fun j hj k hk => ?_⟩
    obtain rfl := List.mem_singleton.1 hk
    rintro rfl
    exact running hj
  endedKnown := by
    intro j hj
    rcases List.mem_append.1 hj with hj | hj
    · exact h.endedKnown j hj
    · obtain rfl := List.mem_singleton.1 hj
      exact (List.getElem?_eq_some_iff.1 known).1
  endedStopped := by
    intro j hj e' he'
    rcases List.mem_append.1 hj with hj | hj
    · exact h.endedStopped j hj e' he'
    · obtain rfl := List.mem_singleton.1 hj
      obtain rfl : e = e' := Option.some.inj (known.symm.trans he')
      exact stopped
  counted := by
    rw [Supervision.finish, h.counted]
    exact (Supervisor.filterMap_ended_finish Supervised.exit known).symm
  handedIn := by
    intro hopen
    have hinbox : (w.finish i e).inbox = w.inbox ++ [e.result] := by
      have hopen : w.returned = none := hopen
      simp [Supervision.finish, hopen]
    rw [hinbox, h.handedIn hopen]
    exact (Supervisor.filterMap_ended_finish Supervised.result known).symm
  took := by
    intro r hr
    obtain ⟨hlaunched, hfirst⟩ := h.took r hr
    refine ⟨hlaunched, ?_⟩
    rw [show (w.finish i e).supervisor.results = w.supervisor.results ++ [e.result] from
      Supervisor.filterMap_ended_finish Supervised.result known, List.head?_append, hfirst]
    rfl

theorem receive (h : Inv endpoints shutdown w) {r : EndpointResult} {rest : List EndpointResult}
    (launched : w.waiting = []) (runs : w.returned = none) (first : w.inbox = r :: rest) :
    Inv endpoints shutdown (w.receive r) where
  inOrder := h.inOrder
  fresh := h.fresh
  endedOnce := h.endedOnce
  endedKnown := h.endedKnown
  endedStopped := h.endedStopped
  counted := h.counted
  handedIn := by
    intro hopen
    cases hopen
  took := by
    intro r' hr
    obtain rfl : r = r' := Option.some.inj hr
    refine ⟨launched, ?_⟩
    have hresults : w.supervisor.results = r :: rest := (h.handedIn runs).symm.trans first
    exact congrArg List.head? hresults

theorem trigger (h : Inv endpoints shutdown w) : Inv endpoints shutdown w.trigger where
  inOrder := h.inOrder
  fresh := by
    intro hfresh
    have htriggered := w.supervisor.shutdown.triggered_begin
    have hfresh : w.supervisor.shutdown.begin.2.2.triggered = false := hfresh
    rw [htriggered] at hfresh
    cases hfresh
  endedOnce := h.endedOnce
  endedKnown := h.endedKnown
  endedStopped := h.endedStopped
  counted := h.counted
  handedIn := h.handedIn
  took := h.took

theorem stop (h : Inv endpoints shutdown w) {i : Nat} {rest : List Nat} (ending : HookEnd)
    (next : w.taken = i :: rest) : Inv endpoints shutdown (w.stop i rest ending) where
  inOrder := h.inOrder
  fresh := by
    intro hfresh
    -- A hook that was taken was taken by a trigger.
    obtain ⟨-, -, htaken⟩ := h.fresh hfresh
    rw [htaken] at next
    cases next
  endedOnce := h.endedOnce
  endedKnown := h.endedKnown
  endedStopped := by
    intro j hj e he hserves
    exact List.mem_append_left _ (h.endedStopped j hj e he hserves)
  counted := h.counted
  handedIn := h.handedIn
  took := h.took

theorem complete (h : Inv endpoints shutdown w) : Inv endpoints shutdown w.complete where
  inOrder := h.inOrder
  fresh := h.fresh
  endedOnce := h.endedOnce
  endedKnown := h.endedKnown
  endedStopped := h.endedStopped
  counted := h.counted
  handedIn := h.handedIn
  took := h.took

/-- **Every step preserves it.** -/
theorem step (h : Inv endpoints shutdown w) (hstep : Step w w') : Inv endpoints shutdown w' := by
  cases hstep with
  | launch next => exact h.launch next
  | finish known running stopped => exact h.finish known running stopped
  | receive launched runs first => exact h.receive launched runs first
  | trigger => exact h.trigger
  | stop ending next => exact h.stop ending next
  | complete => exact h.complete

theorem reaches (h : Inv endpoints shutdown w) (hrun : Reaches w w') :
    Inv endpoints shutdown w' := by
  induction hrun with
  | refl => exact h
  | tail _ hstep ih => exact ih.step hstep

end Inv

/-! ## What a trigger has begun -/

/-- Nothing that can happen adds or drops a hook once shutdown was triggered. -/
theorem stops_of_step {w w' : Supervision} (htriggered : w.supervisor.shutdown.triggered = true)
    (hstep : Step w w') :
    w'.supervisor.shutdown.triggered = true ∧
      w'.supervisor.stopped ++ w'.taken = w.supervisor.stopped ++ w.taken := by
  cases hstep with
  | @launch e rest next =>
    exact ⟨(w.supervisor.shutdown.triggered_addHook _).trans htriggered, rfl⟩
  | finish => exact ⟨htriggered, rfl⟩
  | receive => exact ⟨htriggered, rfl⟩
  | trigger =>
    have hnone : w.supervisor.shutdown.begin = (false, [], w.supervisor.shutdown) :=
      Shutdown.begin_of_triggered htriggered
    simp only [Supervision.trigger, hnone, List.append_nil]
    exact ⟨htriggered, trivial⟩
  | @stop i rest ending next =>
    refine ⟨htriggered, ?_⟩
    rw [next]
    exact List.append_assoc ..
  | complete => exact ⟨htriggered, rfl⟩

theorem stops_of_reaches {w w' : Supervision} (htriggered : w.supervisor.shutdown.triggered = true)
    (hrun : Reaches w w') :
    w'.supervisor.shutdown.triggered = true ∧
      w'.supervisor.stopped ++ w'.taken = w.supervisor.stopped ++ w.taken := by
  induction hrun with
  | refl => exact ⟨htriggered, rfl⟩
  | tail _ hstep ih =>
    obtain ⟨htriggered, heq⟩ := ih
    obtain ⟨htriggered', heq'⟩ := stops_of_step htriggered hstep
    exact ⟨htriggered', heq'.trans heq⟩

/-! ## What can always happen -/

/-- The endpoints that are still to be started can be started. -/
theorem reaches_launched (w : Supervision) :
    Reaches w { w with
      supervisor := w.waiting.foldl Supervisor.add w.supervisor
      waiting := [] } := by
  obtain ⟨supervisor, waiting, taken, endings, inbox, returned, counted⟩ := w
  induction waiting generalizing supervisor with
  | nil => exact .refl
  | cons e rest ih => exact .head (.launch rfl) (ih (supervisor.add e))

/-- The hooks that were taken can run, whatever way each of them ends. -/
theorem reaches_stopped (w : Supervision) (endings : List HookEnd)
    (hlength : endings.length = w.taken.length) :
    Reaches w { w with
      supervisor := { w.supervisor with stopped := w.supervisor.stopped ++ w.taken }
      taken := []
      endings := w.endings ++ endings } := by
  obtain ⟨supervisor, waiting, taken, before, inbox, returned, counted⟩ := w
  induction taken generalizing supervisor before endings with
  | nil =>
    obtain rfl := List.length_eq_zero_iff.1 hlength
    simp only [List.append_nil]
    exact .refl
  | cons i rest ih =>
    cases endings with
    | nil => cases hlength
    | cons ending endings =>
      have hrest := ih endings { supervisor with stopped := supervisor.stopped ++ [i] }
        (before ++ [ending]) (Nat.succ.inj hlength)
      simp only [List.append_assoc, List.singleton_append] at hrest
      exact .head (.stop ending rfl) hrest

/-! ## The run in time -/

theorem reaches_started (endpoints : List Supervised) (shutdown : Shutdown Nat) :
    Reaches (start endpoints shutdown)
      { supervisor := (Supervisor.start endpoints shutdown).1, waiting := [] } := by
  rw [← Supervisor.foldl_add_eq_start]
  exact reaches_launched (start endpoints shutdown)

theorem reaches_triggered (s : Supervisor) :
    ∃ endings, Reaches { supervisor := s, waiting := [] }
      { supervisor := s.trigger.1, waiting := [], endings } := by
  cases h : s.shutdown.triggered with
  | true =>
    rw [Supervisor.trigger_of_triggered h]
    exact ⟨[], .refl⟩
  | false =>
    have hstopped := reaches_stopped (trigger { supervisor := s, waiting := [] })
      (List.replicate s.shutdown.begin.2.1.length .finished) (by simp [trigger])
    have hrun : Reaches { supervisor := s, waiting := [] } _ :=
      .tail (.head (.trigger _) hstopped) (.complete (Shutdown.triggered_begin _) rfl)
    simp only [trigger, complete, Shutdown.begin_of_not_triggered h, List.nil_append] at hrun
    rw [Supervisor.trigger_of_not_triggered h]
    exact ⟨_, hrun⟩

/-- The endpoint that ends first in time ends, and its result is taken. -/
theorem exists_reaches_firstEnd {s : Supervisor} (hne : s.endpoints ≠ []) (hended : s.ended = [])
    (stoppedAt : Option Nat) (endings : List HookEnd) :
    let after := match s.firstEnd stoppedAt with
      | some (_, i) => s.finish i
      | none => s
    ∃ w, Reaches { supervisor := s, waiting := [], endings } w ∧ w.supervisor = after ∧
      w.waiting = [] ∧ w.returned = after.result ∧ w.counted = after.exits := by
  have hempty : s.endpoints.isEmpty = false := by simpa using hne
  cases h : s.firstEnd stoppedAt with
  | none =>
    refine ⟨_, .refl, rfl, rfl, ?_, ?_⟩
    · simp [Supervisor.result, hempty, hended]
    · simp [Supervisor.exits, hended]
  | some first =>
    obtain ⟨t, i⟩ := first
    obtain ⟨e, he, hstopped⟩ := Supervisor.known_of_firstEnd h
    refine ⟨_, .tail (.single (.finish he (by simp [hended]) hstopped))
      (.receive rfl rfl rfl), rfl, rfl, ?_, ?_⟩
    · simp [Supervision.receive, Supervisor.result, Supervisor.finish, hempty, hended, he]
    · simp [Supervision.receive, Supervision.finish, Supervisor.exits, Supervisor.finish, hended,
        he, Supervised.exit]

/-- What is reported in time is one of the runs: all endpoints are started, then shutdown may be
triggered, then one of them ends, and its result is taken. -/
theorem exists_reaches_run {endpoints : List Supervised} (hne : endpoints ≠ [])
    (shutdown : Shutdown Nat) (triggerAt : Option Nat) :
    let report := Supervisor.run endpoints shutdown triggerAt
    ∃ w, Reaches (start endpoints shutdown) w ∧ w.supervisor = report.supervisor ∧
      w.waiting = [] ∧ w.returned = report.result ∧ w.counted = report.supervisor.exits := by
  have hstarted := reaches_started endpoints shutdown
  have hempty : endpoints.isEmpty = false := by simpa using hne
  -- Without a trigger, or with one that comes when the run is over.
  have huntriggered : ∃ w, Reaches (start endpoints shutdown) w ∧ _ :=
    let ⟨w, hw, hrest⟩ := exists_reaches_firstEnd (s := (Supervisor.start endpoints shutdown).1)
      hne rfl none []
    ⟨w, hstarted.trans hw, hrest⟩
  rw [Supervisor.run]
  simp only [hempty, Bool.false_eq_true, ↓reduceIte]
  cases triggerAt with
  | none => exact huntriggered
  | some t =>
    simp only
    split
    · exact huntriggered
    · obtain ⟨endings, htriggered⟩ := reaches_triggered (Supervisor.start endpoints shutdown).1
      obtain ⟨w, hw, hrest⟩ := exists_reaches_firstEnd
        (s := (Supervisor.start endpoints shutdown).1.trigger.1)
        (by rwa [Supervisor.endpoints_trigger]) (Supervisor.ended_trigger _) (some t) endings
      exact ⟨w, (hstarted.trans htriggered).trans hw, hrest⟩

/-! ## Supervised runs -/

/-- What a run of endpoints amounts to, at any moment of it. -/
structure IsSupervised (endpoints : List Supervised) (shutdown : Shutdown Nat)
    (w : Supervision) : Prop where
  /-- The endpoints are started in order, and all of them can be. -/
  started : w.supervisor.endpoints ++ w.waiting = endpoints ∧
    ∃ w', Reaches w w' ∧ w'.supervisor.endpoints = endpoints ∧ w'.waiting = []
  /-- The result is that of the endpoint that ended first. -/
  result : ∀ r, w.returned = some r → w.waiting = [] ∧ ∃ i e, w.supervisor.ended.head? = some i ∧
    endpoints[i]? = some e ∧ (e.behaviour = .panics → r = .error (.panicked e.name)) ∧
      (∀ r', e.behaviour = .ends r' → r = r') ∧ (e.behaviour = .serves → r = .error .closed)
  /-- There will be a result as soon as an endpoint has ended. -/
  returns : w.supervisor.ended ≠ [] → ∃ w', Reaches w w' ∧ w'.returned.isSome
  /-- Before a trigger each started endpoint has one hook, whatever has ended, and nothing was
  stopped: endpoints that serve have not ended. -/
  hooked : w.supervisor.shutdown.triggered = false →
    w.supervisor.shutdown.hooks =
        (List.range w.supervisor.endpoints.length).reverse ++ shutdown.hooks ∧
      w.supervisor.stopped = [] ∧ w.taken = [] ∧
      ∀ i ∈ w.supervisor.ended, ∀ e, endpoints[i]? = some e → e.behaviour ≠ .serves
  /-- A trigger after the start stops each endpoint once, the last one first, whatever way each of
  the stops ends and whatever happens meanwhile. -/
  stops : w.supervisor.shutdown.triggered = false → w.waiting = [] → ∀ w', Reaches w.trigger w' →
    w'.supervisor.stopped ++ w'.taken = (List.range endpoints.length).reverse ++ shutdown.hooks ∧
      ∀ endings : List HookEnd, endings.length = w'.taken.length → ∃ w'', Reaches w' w'' ∧
        w''.endings = w'.endings ++ endings ∧
        w''.supervisor.stopped = (List.range endpoints.length).reverse ++ shutdown.hooks
  /-- Each endpoint that ended is counted once, as closed or as an error. -/
  counted : w.supervisor.ended.Nodup ∧
    w.counted = w.supervisor.ended.filterMap (fun i => endpoints[i]?.map fun e =>
      .endpointExit e.name (isFailedExit e.result)) ∧
    ∀ i ∈ w.supervisor.ended, ∃ e, endpoints[i]? = some e ∧
      (isFailedExit e.result = false ↔ e.result = .ok () ∨ e.result = .error .closed)

theorem isFailedExit_eq_false_iff (r : EndpointResult) :
    isFailedExit r = false ↔ r = .ok () ∨ r = .error .closed := by
  cases r with
  | ok u => simp [isFailedExit]
  | error e => simp [isFailedExit, EndpointError.isClosed]

/-- What was looked up among the endpoints that were started is the same among all. -/
theorem getElem?_started {endpoints : List Supervised} {shutdown : Shutdown Nat} {w : Supervision}
    (h : Inv endpoints shutdown w) {i : Nat} (hi : i ∈ w.supervisor.ended) :
    w.supervisor.endpoints[i]? = endpoints[i]? := by
  rw [← h.inOrder]
  exact (List.getElem?_append_left (h.endedKnown i hi)).symm

/-- **Endpoints under supervision**: whatever order things happen in, the run comes to the result of
the endpoint that ends first, all endpoints are started in order and have one hook each, the end of
one stops no other, a trigger stops each once with the last one first, and each end is counted
once. -/
theorem supervised (endpoints : List Supervised) (shutdown : Shutdown Nat) {w : Supervision}
    (hrun : Reaches (start endpoints shutdown) w) : IsSupervised endpoints shutdown w := by
  have h : Inv endpoints shutdown w := (Inv.start endpoints shutdown).reaches hrun
  constructor
  case started =>
    refine ⟨h.inOrder, _, reaches_launched w, ?_, rfl⟩
    rw [Supervisor.foldl_add]
    exact h.inOrder
  case result =>
    intro r hr
    obtain ⟨hlaunched, hfirst⟩ := h.took r hr
    obtain ⟨i, e, hi, he, rfl⟩ := Supervisor.of_head?_results h.endedKnown hfirst
    rw [getElem?_started h (List.mem_of_head? hi)] at he
    refine ⟨hlaunched, i, e, hi, he, fun hpanics => ?_, fun r' hends => ?_, fun hserves => ?_⟩
    · rw [Supervised.result, hpanics]
    · rw [Supervised.result, hends]
    · rw [Supervised.result, hserves]
  case returns =>
    intro hended
    cases hreturned : w.returned with
    | some r => exact ⟨w, .refl, by rw [hreturned]; rfl⟩
    | none =>
      obtain ⟨r, rest, hresults⟩ := Supervisor.exists_results h.endedKnown hended
      have hfirst : w.inbox = r :: rest := (h.handedIn hreturned).trans hresults
      exact ⟨_, .tail (reaches_launched w) (.receive rfl hreturned hfirst), rfl⟩
  case hooked =>
    intro hfresh
    obtain ⟨hhooks, hstopped, htaken⟩ := h.fresh hfresh
    refine ⟨hhooks, hstopped, htaken, fun i hi e he hserves => ?_⟩
    have hmem : i ∈ w.supervisor.stopped :=
      h.endedStopped i hi e ((getElem?_started h hi).trans he) hserves
    rw [hstopped] at hmem
    cases hmem
  case stops =>
    intro hfresh hlaunched w' hrun'
    obtain ⟨hhooks, hstopped, htaken⟩ := h.fresh hfresh
    have hall : w.supervisor.endpoints = endpoints := by
      simpa [hlaunched] using h.inOrder
    have htrigger : w.trigger.supervisor.stopped ++ w.trigger.taken =
        (List.range endpoints.length).reverse ++ shutdown.hooks := by
      have hbegin := Shutdown.begin_of_not_triggered hfresh
      simp only [Supervision.trigger, hbegin, hstopped, htaken, hhooks, hall, List.nil_append]
    obtain ⟨-, hkept⟩ := stops_of_reaches w.supervisor.shutdown.triggered_begin hrun'
    refine ⟨hkept.trans htrigger, fun endings hlength => ?_⟩
    exact ⟨_, reaches_stopped w' endings hlength, rfl, hkept.trans htrigger⟩
  case counted =>
    refine ⟨h.endedOnce, ?_, fun i hi => ?_⟩
    · rw [h.counted]
      refine List.filterMap_congr fun i hi => ?_
      rw [getElem?_started h hi]
    · have he := List.getElem?_eq_getElem (h.endedKnown i hi)
      exact ⟨_, (getElem?_started h hi).symm.trans he, isFailedExit_eq_false_iff _⟩

/-- The second endpoint serves while the first one panics, and both are stopped afterwards, though
the first stop that is tried fails. -/
theorem supervised_panicked_first :
    let endpoints : List Supervised :=
      [{ name := "a", behaviour := .panics }, { name := "b", behaviour := .serves }]
    ∃ w, Reaches (start endpoints {}) w ∧ IsSupervised endpoints {} w ∧
      w.returned = some (.error (.panicked "a")) ∧ w.supervisor.stopped = [1, 0] ∧
      w.endings = [.failed, .finished] ∧
      w.counted = [.endpointExit "a" true, .endpointExit "b" false] := by
  intro endpoints
  have hrun : Reaches (start endpoints {}) _ := .head (.launch rfl) <|
    .head (.finish (i := 0) rfl (by decide) nofun) <| .head (.launch rfl) <|
    .head (.receive rfl rfl rfl) <| .head (.trigger _) <| .head (.stop .failed rfl) <|
    .head (.stop .finished rfl) <| .single (.finish (i := 1) rfl (by decide) fun _ => by decide)
  exact ⟨_, hrun, supervised endpoints {} hrun, rfl, rfl, rfl, rfl⟩

end Supervision

end Chassis
