import Chassis.Endpoint.Listener
import Mathlib.Logic.Relation

/-!
# What a run that ends as closed tells

> **a run tells rightly that its endpoint was closed unless an earlier one has taken what there was
> to serve** (`EndpointUse.tellsRightly_iff`).

To end as closed is to have been stopped, which is no failure. Every run after a stop ends so, and a
run that serves ends so only after one. But a run takes what there is to serve when it starts, also
where it then cannot listen, and a later run that finds nothing ends as closed, too, whether or not
anybody stopped the endpoint. The two front ends differ in one thing only: over RPC the address is
looked at first, so a run under a bad one takes nothing, and its failure is told every time
(`ListeningEndpoint.start_eq`).

An endpoint in use is followed call by call. Runs begin and return in any order, and each is kept
with the calls made before it began and those made by the time it returned, so what is said of a run
is said of calls alone. `Begins` is how a run begins after some calls, `EndpointUse.Inv` that every
run began so.
-/

set_option autoImplicit false

namespace Chassis

/-! ## How runs begin -/

namespace ListeningEndpoint

/-- A run takes what there is to serve, also if it then cannot listen. -/
def handsOver (e : ListeningEndpoint) : Bool :=
  e.frontEnd == .http || (Net.SocketAddress.ofText? e.address).isSome

/-- What keeps a run from listening, as it is told. -/
def obstacle? (e : ListeningEndpoint) (bind : Net.SocketAddress → Option String) :
    Option EndpointError :=
  match Net.SocketAddress.ofText? e.address with
  | none => some (.address e.address)
  | some a => (bind a).map fun reason =>
    match e.frontEnd with
    | .http => .bind e.address reason
    | .rpc => .transport

/-- Both front ends start alike, in whatever order they look at things. -/
theorem start_eq (e : ListeningEndpoint) (bind : Net.SocketAddress → Option String) :
    e.start bind =
      if e.stopped then (e, .ended (.error .closed))
      else ({ e with handedOver := e.handedOver || e.handsOver },
        if e.handedOver && e.handsOver then .ended (.error .closed)
        else match e.obstacle? bind with
          | some error => .ended (.error error)
          | none => .serving) := by
  obtain ⟨frontEnd, label, address, handedOver, stopped⟩ := e
  cases stopped with
  | true => rfl
  | false =>
    cases frontEnd with
    | http =>
      cases handedOver with
      | true => rfl
      | false =>
        cases haddress : Net.SocketAddress.ofText? address with
        | none => simp [start, handsOver, obstacle?, haddress]
        | some a => cases hbind : bind a <;> simp [start, handsOver, obstacle?, haddress, hbind]
    | rpc =>
      cases haddress : Net.SocketAddress.ofText? address with
      | none => simp [start, handsOver, obstacle?, haddress]
      | some a =>
        cases handedOver with
        | true => simp [start, handsOver, haddress]
        | false => cases hbind : bind a <;> simp [start, handsOver, obstacle?, haddress, hbind]

section

variable (e : ListeningEndpoint) (bind : Net.SocketAddress → Option String)

@[simp] theorem frontEnd_start : (e.start bind).1.frontEnd = e.frontEnd := by
  rw [start_eq]
  split <;> rfl

@[simp] theorem address_start : (e.start bind).1.address = e.address := by
  rw [start_eq]
  split <;> rfl

@[simp] theorem stopped_start : (e.start bind).1.stopped = e.stopped := by
  rw [start_eq]
  split <;> rfl

end

theorem handedOver_start {e : ListeningEndpoint} (h : e.stopped = false)
    (bind : Net.SocketAddress → Option String) :
    (e.start bind).1.handedOver = (e.handedOver || e.handsOver) := by
  rw [start_eq, h]
  rfl

/-- What keeps a run from listening is a failure. -/
theorem isFailedExit_of_obstacle? (e : ListeningEndpoint)
    {bind : Net.SocketAddress → Option String} {error : EndpointError}
    (h : e.obstacle? bind = some error) : isFailedExit (.error error) = true := by
  rw [obstacle?] at h
  split at h
  case h_1 =>
    obtain rfl := Option.some.inj h
    rfl
  case h_2 a _ =>
    obtain ⟨reason, -, rfl⟩ := Option.map_eq_some_iff.1 h
    cases e.frontEnd <;> rfl

/-- Under a bad address a run over RPC takes nothing, and one over HTTP does. -/
example (bind : Net.SocketAddress → Option String) :
    let e (frontEnd : FrontEnd) : ListeningEndpoint :=
      { frontEnd, label := "rest", address := "nowhere" }
    ((e .rpc).start bind).1 = e .rpc ∧ ((e .http).start bind).1.handedOver = true :=
  ⟨rfl, rfl⟩

end ListeningEndpoint

/-! ## Endpoints in use -/

/-- A call on an endpoint. With a run comes what binding an address comes to at that time. -/
inductive EndpointCall
  | run (bind : Net.SocketAddress → Option String)
  | stop

/-- A run that began: the calls made before it, what binding came to, and how it started. -/
structure EndpointRun where
  earlier : List EndpointCall
  bind : Net.SocketAddress → Option String
  started : Started

/-- A run that returned: the calls made by then, and what it returned. -/
structure EndpointReturn where
  run : EndpointRun
  calls : List EndpointCall
  result : EndpointResult

/-- An endpoint, the calls that were made on it, the runs that have not returned, in any order, and
those that have, the last one at the end. -/
structure EndpointUse where
  endpoint : ListeningEndpoint
  calls : List EndpointCall := []
  running : List EndpointRun := []
  returns : List EndpointReturn := []

/-- How an endpoint that serves can fail. -/
def FrontEnd.BreaksWith : FrontEnd → EndpointError → Prop
  | .http, .serve _ => True
  | .rpc, .transport => True
  | _, _ => False

theorem FrontEnd.not_breaksWith_closed (frontEnd : FrontEnd) : ¬ frontEnd.BreaksWith .closed := by
  cases frontEnd <;> exact id

/-- What a run may return: what it ended with when it started, or, if it serves, that the endpoint
is closed when it was stopped, and a failure at any time. -/
inductive Started.MayReturn (frontEnd : FrontEnd) (isStopped : Prop) :
    Started → EndpointResult → Prop
  | ended (r : EndpointResult) : MayReturn frontEnd isStopped (.ended r) r
  | stopped (h : isStopped) : MayReturn frontEnd isStopped .serving (.error .closed)
  | broke {error : EndpointError} (h : frontEnd.BreaksWith error) :
      MayReturn frontEnd isStopped .serving (.error error)

namespace EndpointUse

def run (u : EndpointUse) (bind : Net.SocketAddress → Option String) : EndpointUse :=
  { u with
    endpoint := (u.endpoint.start bind).1
    calls := u.calls ++ [.run bind]
    running := u.running ++ [⟨u.calls, bind, (u.endpoint.start bind).2⟩] }

def stop (u : EndpointUse) : EndpointUse :=
  { u with endpoint := u.endpoint.stop, calls := u.calls ++ [.stop] }

def finish (u : EndpointUse) (run : EndpointRun) (others : List EndpointRun) (r : EndpointResult) :
    EndpointUse :=
  { u with running := others, returns := u.returns ++ [⟨run, u.calls, r⟩] }

/-- What can happen to an endpoint in use: a call, or the return of a run. -/
inductive Step : EndpointUse → EndpointUse → Prop
  | run (u : EndpointUse) (bind : Net.SocketAddress → Option String) : Step u (u.run bind)
  | stop (u : EndpointUse) : Step u u.stop
  | finish {u : EndpointUse} {run : EndpointRun} {others : List EndpointRun} {r : EndpointResult}
      (running : u.running.Perm (run :: others))
      (may : run.started.MayReturn u.endpoint.frontEnd (u.endpoint.stopped = true) r) :
      Step u (u.finish run others r)

abbrev Reaches : EndpointUse → EndpointUse → Prop := Relation.ReflTransGen Step

/-- A run can return this next. -/
def CanReturn (u : EndpointUse) (run : EndpointRun) (r : EndpointResult) : Prop :=
  ∃ u', Step u u' ∧ u'.returns = u.returns ++ [⟨run, u.calls, r⟩]

end EndpointUse

/-! ## What calls alone tell -/

namespace ListeningEndpoint

/-- An earlier run has taken what there was to serve. -/
def NothingLeft (e : ListeningEndpoint) (earlier : List EndpointCall) : Prop :=
  e.handsOver = true ∧ ∃ bind, .run bind ∈ earlier

/-- How a run begins after some calls. -/
inductive Begins (e : ListeningEndpoint) (earlier : List EndpointCall)
    (bind : Net.SocketAddress → Option String) : Started → Prop
  | stopped (h : .stop ∈ earlier) : Begins e earlier bind (.ended (.error .closed))
  | nothingLeft (h : e.NothingLeft earlier) (unstopped : .stop ∉ earlier) :
      Begins e earlier bind (.ended (.error .closed))
  | obstructed {error : EndpointError} (h : e.obstacle? bind = some error)
      (left : ¬ e.NothingLeft earlier) (unstopped : .stop ∉ earlier) :
      Begins e earlier bind (.ended (.error error))
  | serves (h : e.obstacle? bind = none) (left : ¬ e.NothingLeft earlier)
      (unstopped : .stop ∉ earlier) : Begins e earlier bind .serving

theorem Begins.unique {e : ListeningEndpoint} {earlier : List EndpointCall}
    {bind : Net.SocketAddress → Option String} {started started' : Started}
    (h : e.Begins earlier bind started) (h' : e.Begins earlier bind started') :
    started = started' := by
  cases h <;> cases h' <;> simp_all

/-- What a run may return: `earlier` are the calls before it began, `calls` those by the time it
returns. -/
def MayReturn (e : ListeningEndpoint) (earlier : List EndpointCall)
    (bind : Net.SocketAddress → Option String) (calls : List EndpointCall) (r : EndpointResult) :
    Prop :=
  ∃ started, e.Begins earlier bind started ∧ started.MayReturn e.frontEnd (.stop ∈ calls) r

end ListeningEndpoint

/-- What a run returned tells rightly whether its endpoint was stopped: it is closed only after a
stop, a run that something keeps from listening is told as a failure, and after a stop all are
closed. -/
structure EndpointReturn.TellsRightly (e : ListeningEndpoint) (t : EndpointReturn) : Prop where
  closed : t.result = .error .closed → .stop ∈ t.calls
  failed : ∀ error, e.obstacle? t.run.bind = some error → .stop ∉ t.run.earlier →
    isFailedExit t.result = true
  stopped : .stop ∈ t.run.earlier → t.result = .error .closed

namespace EndpointUse

/-! ## The invariant -/

/-- What is so in every state of an endpoint in use. After a stop it no longer matters whether
something is left to serve. -/
structure Inv (e : ListeningEndpoint) (u : EndpointUse) : Prop where
  frontEnd : u.endpoint.frontEnd = e.frontEnd
  address : u.endpoint.address = e.address
  stopped : u.endpoint.stopped = true ↔ .stop ∈ u.calls
  handedOver : .stop ∉ u.calls → (u.endpoint.handedOver = true ↔ e.NothingLeft u.calls)
  running : ∀ run ∈ u.running, run.earlier ⊆ u.calls ∧ e.Begins run.earlier run.bind run.started
  returns : ∀ t ∈ u.returns, t.run.earlier ⊆ t.calls ∧
    e.MayReturn t.run.earlier t.run.bind t.calls t.result

namespace Inv

variable {e : ListeningEndpoint} {u u' : EndpointUse}

theorem handsOver_eq (h : Inv e u) : u.endpoint.handsOver = e.handsOver := by
  rw [ListeningEndpoint.handsOver, h.frontEnd, h.address, ListeningEndpoint.handsOver]

theorem obstacle?_eq (h : Inv e u) (bind : Net.SocketAddress → Option String) :
    u.endpoint.obstacle? bind = e.obstacle? bind := by
  rw [ListeningEndpoint.obstacle?, h.frontEnd, h.address, ListeningEndpoint.obstacle?]

/-- A run that begins now begins as the calls tell. -/
theorem begins (h : Inv e u) (bind : Net.SocketAddress → Option String) :
    e.Begins u.calls bind (u.endpoint.start bind).2 := by
  rw [u.endpoint.start_eq]
  by_cases hstop : .stop ∈ u.calls
  · rw [if_pos (h.stopped.2 hstop)]
    exact .stopped hstop
  · rw [if_neg fun hs => hstop (h.stopped.1 hs)]
    by_cases hleft : e.NothingLeft u.calls
    · have htaken : (u.endpoint.handedOver && u.endpoint.handsOver) = true := by
        rw [(h.handedOver hstop).2 hleft, h.handsOver_eq, hleft.1]
        rfl
      simp only [if_pos htaken]
      exact .nothingLeft hleft hstop
    · have htaken : ¬ (u.endpoint.handedOver && u.endpoint.handsOver) = true := by
        intro hand
        exact hleft ((h.handedOver hstop).1 (Bool.and_eq_true_iff.1 hand).1)
      simp only [if_neg htaken, h.obstacle?_eq]
      cases hobstacle : e.obstacle? bind with
      | none => exact .serves hobstacle hleft hstop
      | some error => exact .obstructed hobstacle hleft hstop

theorem start (hserves : e.handedOver = false) (hruns : e.stopped = false) :
    Inv e { endpoint := e } where
  frontEnd := rfl
  address := rfl
  stopped := by simp [hruns]
  handedOver := by
    intro _
    simp [hserves, ListeningEndpoint.NothingLeft]
  running := by
    intro run hrun
    cases hrun
  returns := by
    intro t ht
    cases ht

theorem run (h : Inv e u) (bind : Net.SocketAddress → Option String) : Inv e (u.run bind) where
  frontEnd := by rw [EndpointUse.run, ListeningEndpoint.frontEnd_start, h.frontEnd]
  address := by rw [EndpointUse.run, ListeningEndpoint.address_start, h.address]
  stopped := by
    rw [EndpointUse.run, ListeningEndpoint.stopped_start, h.stopped]
    simp
  handedOver := by
    intro hstop
    have hearlier : .stop ∉ u.calls := fun hs => hstop (List.mem_append_left _ hs)
    have hruns : u.endpoint.stopped = false :=
      Bool.eq_false_iff.2 fun hs => hearlier (h.stopped.1 hs)
    have hcalled : .run bind ∈ u.calls ++ [.run bind] :=
      List.mem_append_right _ (List.mem_singleton.2 rfl)
    rw [EndpointUse.run, ListeningEndpoint.handedOver_start hruns, Bool.or_eq_true,
      h.handsOver_eq, h.handedOver hearlier]
    constructor
    · rintro (hleft | hhands)
      · exact ⟨hleft.1, bind, hcalled⟩
      · exact ⟨hhands, bind, hcalled⟩
    · intro hleft
      exact .inr hleft.1
  running := by
    intro run hrun
    rcases List.mem_append.1 hrun with hrun | hrun
    · obtain ⟨hearlier, hbegins⟩ := h.running run hrun
      exact ⟨fun c hc => List.mem_append_left _ (hearlier hc), hbegins⟩
    · obtain rfl := List.mem_singleton.1 hrun
      exact ⟨fun c hc => List.mem_append_left _ hc, h.begins bind⟩
  returns := h.returns

theorem stop (h : Inv e u) : Inv e u.stop where
  frontEnd := h.frontEnd
  address := h.address
  stopped := by simp [EndpointUse.stop, ListeningEndpoint.stop]
  handedOver := by
    intro hstop
    exact absurd (List.mem_append_right _ (List.mem_singleton.2 rfl)) hstop
  running := by
    intro run hrun
    obtain ⟨hearlier, hbegins⟩ := h.running run hrun
    exact ⟨fun c hc => List.mem_append_left _ (hearlier hc), hbegins⟩
  returns := h.returns

/-- What a run that began may return goes by the calls. -/
theorem mayReturn_iff (h : Inv e u) (started : Started) (r : EndpointResult) :
    started.MayReturn u.endpoint.frontEnd (u.endpoint.stopped = true) r ↔
      started.MayReturn e.frontEnd (.stop ∈ u.calls) r := by
  rw [h.frontEnd, h.stopped]

theorem finish (h : Inv e u) {run : EndpointRun} {others : List EndpointRun} {r : EndpointResult}
    (running : u.running.Perm (run :: others))
    (may : run.started.MayReturn u.endpoint.frontEnd (u.endpoint.stopped = true) r) :
    Inv e (u.finish run others r) where
  frontEnd := h.frontEnd
  address := h.address
  stopped := h.stopped
  handedOver := h.handedOver
  running := by
    intro other hother
    exact h.running other (running.mem_iff.2 (List.mem_cons_of_mem _ hother))
  returns := by
    intro t ht
    rcases List.mem_append.1 ht with ht | ht
    · exact h.returns t ht
    · obtain rfl := List.mem_singleton.1 ht
      obtain ⟨hearlier, hbegins⟩ := h.running run (running.mem_iff.2 List.mem_cons_self)
      exact ⟨hearlier, run.started, hbegins, (h.mayReturn_iff run.started r).1 may⟩

theorem step (h : Inv e u) (hstep : Step u u') : Inv e u' := by
  cases hstep with
  | run bind => exact h.run bind
  | stop => exact h.stop
  | finish running may => exact h.finish running may

theorem reaches (h : Inv e u) (hreach : Reaches u u') : Inv e u' := by
  induction hreach with
  | refl => exact h
  | tail _ hstep ih => exact ih.step hstep

end Inv

/-! ## What runs return -/

variable {e : ListeningEndpoint} {u : EndpointUse}

/-- What a run can return next is what the calls tell. -/
theorem canReturn_iff (h : Inv e u) {run : EndpointRun} (hrun : run ∈ u.running)
    (r : EndpointResult) :
    u.CanReturn run r ↔ e.MayReturn run.earlier run.bind u.calls r := by
  have hbegins := (h.running run hrun).2
  constructor
  · rintro ⟨u', hstep, hreturns⟩
    cases hstep with
    | run bind => exact absurd hreturns (by simp [EndpointUse.run])
    | stop => exact absurd hreturns (by simp [EndpointUse.stop])
    | @finish other others r' running may =>
      have hlast := List.append_cancel_left hreturns
      simp only [List.cons.injEq, and_true, EndpointReturn.mk.injEq, true_and] at hlast
      obtain ⟨rfl, rfl⟩ := hlast
      exact ⟨other.started, hbegins, (h.mayReturn_iff other.started r').1 may⟩
  · rintro ⟨started, hstarted, hmay⟩
    obtain rfl : started = run.started := hstarted.unique hbegins
    obtain ⟨before, after, hsplit⟩ := List.append_of_mem hrun
    have hperm : u.running.Perm (run :: (before ++ after)) := by
      rw [hsplit]
      exact List.perm_middle
    exact ⟨_, .finish hperm ((h.mayReturn_iff run.started r).2 hmay), rfl⟩

/-- Among the runs that begin unstopped, the one result that can mislead is that of a run that finds
nothing left. -/
theorem tellsRightly_iff_of_mayReturn {t : EndpointReturn} (hearlier : t.run.earlier ⊆ t.calls)
    (hmay : e.MayReturn t.run.earlier t.run.bind t.calls t.result) :
    t.TellsRightly e ↔ .stop ∈ t.run.earlier ∨ ¬ e.NothingLeft t.run.earlier ∨
      (e.obstacle? t.run.bind = none ∧ .stop ∈ t.calls) := by
  obtain ⟨run, calls, r⟩ := t
  obtain ⟨started, hbegins, hreturn⟩ := hmay
  cases hbegins with
  | stopped hstop =>
    cases hreturn
    refine iff_of_true ⟨fun _ => hearlier hstop, fun _ _ hno => ?_, fun _ => rfl⟩ (.inl hstop)
    exact absurd hstop hno
  | nothingLeft hleft hstop =>
    cases hreturn
    -- It returned as closed, so what decides is what would have come of it.
    constructor
    · intro h
      refine .inr (.inr ⟨?_, h.closed rfl⟩)
      cases hobstacle : e.obstacle? run.bind with
      | none => rfl
      | some error => cases h.failed error hobstacle hstop
    · rintro (hs | hl | ⟨hnone, hs⟩)
      · exact absurd hs hstop
      · exact absurd hleft hl
      · refine ⟨fun _ => hs, fun error herror => ?_, fun hs => absurd hs hstop⟩
        rw [hnone] at herror
        cases herror
  | @obstructed error hobstacle left hstop =>
    cases hreturn
    have hfailed := e.isFailedExit_of_obstacle? hobstacle
    refine iff_of_true ⟨fun hclosed => ?_, fun _ _ _ => hfailed, fun hs => absurd hs hstop⟩
      (.inr (.inl left))
    obtain rfl : error = .closed := Except.error.inj hclosed
    cases hfailed
  | serves hnone left hstop =>
    have hclosed : r = .error .closed → .stop ∈ calls := by
      rintro rfl
      cases hreturn with
      | stopped hs => exact hs
      | broke hbreaks => exact absurd hbreaks e.frontEnd.not_breaksWith_closed
    refine iff_of_true ⟨hclosed, fun error herror => ?_, fun hs => absurd hs hstop⟩
      (.inr (.inl left))
    rw [hnone] at herror
    cases herror

/-- **A run tells rightly whether its endpoint was stopped unless an earlier one has taken what
there was to serve.** A run that begins unstopped and finds nothing left tells it rightly only if
nothing would have kept it from listening and the endpoint was stopped before it returned. What runs
return, and what they can return next, is what the calls tell; one that begins after a stop need not
wait to return that the endpoint is closed. -/
theorem tellsRightly_iff (e : ListeningEndpoint) (hserves : e.handedOver = false)
    (hruns : e.stopped = false) {u : EndpointUse} (h : Reaches { endpoint := e } u) :
    (∀ t ∈ u.returns,
      e.MayReturn t.run.earlier t.run.bind t.calls t.result ∧
      (t.TellsRightly e ↔ .stop ∈ t.run.earlier ∨ ¬ e.NothingLeft t.run.earlier ∨
        (e.obstacle? t.run.bind = none ∧ .stop ∈ t.calls))) ∧
    ∀ run ∈ u.running,
      (∀ r, u.CanReturn run r ↔ e.MayReturn run.earlier run.bind u.calls r) ∧
      (.stop ∈ run.earlier → u.CanReturn run (.error .closed)) := by
  have hinv : Inv e u := (Inv.start hserves hruns).reaches h
  refine ⟨fun t ht => ?_, fun run hrun => ⟨canReturn_iff hinv hrun, fun hstop => ?_⟩⟩
  · obtain ⟨hearlier, hmay⟩ := hinv.returns t ht
    exact ⟨hmay, tellsRightly_iff_of_mayReturn hearlier hmay⟩
  · rw [canReturn_iff hinv hrun]
    exact ⟨_, .stopped hstop, .ended _⟩

/-! ## A run too many -/

/-- A run that ends when it starts, and returns at once. -/
def tried (u : EndpointUse) (bind : Net.SocketAddress → Option String) (r : EndpointResult) :
    EndpointUse :=
  (u.run bind).finish ⟨u.calls, bind, .ended r⟩ u.running r

theorem reaches_tried {bind : Net.SocketAddress → Option String} {r : EndpointResult}
    (h : (u.endpoint.start bind).2 = .ended r) : Reaches u (u.tried bind r) := by
  have hperm : (u.run bind).running.Perm (⟨u.calls, bind, .ended r⟩ :: u.running) := by
    rw [EndpointUse.run, h]
    exact List.perm_append_singleton _ _
  exact .tail (.single (.run u bind)) (.finish hperm (.ended r))

/-- An endpoint under an address that is none. -/
def nowhere : ListeningEndpoint := { frontEnd := .http, label := "rest", address := "nowhere" }

/-- It is started twice where nothing else is in the way of binding. -/
def refusedTwice : EndpointUse :=
  (({ endpoint := nowhere } : EndpointUse).tried (fun _ => none)
    (.error (.address "nowhere"))).tried (fun _ => none) (.error .closed)

theorem reaches_refusedTwice : Reaches { endpoint := nowhere } refusedTwice :=
  (reaches_tried rfl).trans (reaches_tried rfl)

/-- The first run tells that the address is none, the second that the endpoint was stopped, and so
does one after a stop. -/
theorem tellsRightly_iff_nowhere :
    nowhere.handedOver = false ∧ nowhere.stopped = false ∧
      Reaches { endpoint := nowhere }
        (refusedTwice.stop.tried (fun _ => none) (.error .closed)) ∧
      ∃ first second third,
        (refusedTwice.stop.tried (fun _ => none) (.error .closed)).returns =
          [first, second, third] ∧
        [first, second, third].map (·.result) =
          [.error (.address "nowhere"), .error .closed, .error .closed] ∧
        first.TellsRightly nowhere ∧ ¬ second.TellsRightly nowhere ∧
        third.TellsRightly nowhere := by
  have hreach : Reaches { endpoint := nowhere }
      (refusedTwice.stop.tried (fun _ => none) (.error .closed)) :=
    (reaches_refusedTwice.tail (.stop _)).trans (reaches_tried rfl)
  obtain ⟨hreturns, -⟩ := tellsRightly_iff nowhere rfl rfl hreach
  refine ⟨rfl, rfl, hreach, _, _, _, rfl, rfl, ?_, ?_, ?_⟩
  · refine (hreturns _ (List.mem_cons_self)).2.2 (.inr (.inl ?_))
    rintro ⟨-, bind, hmem⟩
    cases hmem
  · intro hright
    have hcause := (hreturns _ (List.mem_cons_of_mem _ List.mem_cons_self)).2.1 hright
    rcases hcause with hstop | hleft | ⟨hnone, -⟩
    · simp [tried, EndpointUse.run, EndpointUse.finish] at hstop
    · exact hleft ⟨rfl, _, List.mem_cons_self⟩
    · cases hnone
  · refine (hreturns _ (List.mem_cons_of_mem _ (List.mem_cons_of_mem _ List.mem_cons_self))).2.2
      (.inl ?_)
    simp [refusedTwice, tried, EndpointUse.run, EndpointUse.stop, EndpointUse.finish]

/-- Not every run that ends as closed was stopped. -/
theorem not_always_tellsRightly :
    ¬ ∀ (e : ListeningEndpoint), e.handedOver = false → e.stopped = false →
      ∀ u, Reaches { endpoint := e } u → ∀ t ∈ u.returns, t.TellsRightly e := by
  intro h
  have hsecond := h nowhere rfl rfl refusedTwice reaches_refusedTwice _
    (List.mem_cons_of_mem _ List.mem_cons_self)
  have hstop := hsecond.closed rfl
  simp [tried, EndpointUse.run, EndpointUse.finish] at hstop

end EndpointUse

end Chassis
