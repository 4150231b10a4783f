import Chassis.Proofs.Session.Hooks
import Chassis.Proofs.Table
import Mathlib.Data.List.Induction

/-!
# Tickers tick once a period

> **until shutdown is triggered a ticker has ticked once for each whole period since it was
> started, in whatever steps the clock was moved; from then on it never ticks again**
> (`ticks_once_a_period`).

`Ticker.moveTo` takes a ticker over all ticks of a step at once. What it stands for is the loop of
the ticker, which does one tick and waits for the next (`Ticker.tick`), and each pass of that loop
takes a ticker from one due time to the following one (`Started.tick_ticker`). So the phase is
carried across the steps of the clock: where a ticker stands depends on when it was started and what
time it is (`Started.ticker`), and not on the steps in between (`Started.moveTo_ticker`).

Over a session the time is the sum of all moves of the clock, a wait counted only while it is not
over at once. Tickers run on that clock up to the first trigger (`tickingTime`), which stops every
ticker there is, because each one left a hook with its own position.
-/

set_option autoImplicit false

namespace Chassis.Session

/-! ## One pass of the loop -/

namespace Ticker

variable {t : Ticker} {now : Nat}

/-- The tick that is due, and the next one a period later. -/
def tick (t : Ticker) : Ticker := { t with count := t.count + 1, due := t.due + t.period }

def stop (t : Ticker) : Ticker := { t with stopped := true }

theorem moveTo_of_stopped (h : t.stopped = true) (now : Nat) : t.moveTo now = t := by
  simp [moveTo, h]

theorem moveTo_of_not_due (h : now < t.due) : t.moveTo now = t := by
  simp [moveTo, h]

/-- **Where a tick is due, the step of the clock begins with it** and goes on from there. -/
theorem moveTo_of_due (hrunning : t.stopped = false) (hperiod : 0 < t.period) (h : t.due ≤ now) :
    t.moveTo now = t.tick.moveTo now := by
  by_cases hnext : t.due + t.period ≤ now
  · have hticks : (now - t.due) / t.period = (now - (t.due + t.period)) / t.period + 1 := by
      rw [← Nat.sub_sub, ← Nat.div_eq_sub_div hperiod (by omega)]
    simp only [moveTo, tick, hrunning, Bool.false_or, Nat.not_lt.2 h, Nat.not_lt.2 hnext,
      decide_false, Bool.false_eq_true, if_false, hticks, Nat.succ_mul]
    congr 1 <;> omega
  · have hticks : (now - t.due) / t.period = 0 := Nat.div_eq_of_lt (by omega)
    have hnot : t.tick.moveTo now = t.tick := moveTo_of_not_due (Nat.not_le.1 hnext)
    rw [hnot]
    simp [moveTo, tick, hrunning, Nat.not_lt.2 h, hticks]

end Ticker

/-! ## A ticker at a time -/

/-- A ticker as it was started: its name, its period, and the time of its start. -/
structure Started where
  name : String
  period : Nat
  time : Nat
deriving DecidableEq, Repr

namespace Started

/-- The whole periods that are over at a time; a period of no length counts as one millisecond. -/
def ticks (s : Started) (now : Nat) : Nat := (now - s.time) / max s.period 1

def ticker (s : Started) (now : Nat) (stopped : Bool) : Ticker where
  name := s.name
  period := max s.period 1
  due := s.time + (s.ticks now + 1) * max s.period 1
  count := s.ticks now
  stopped := stopped

theorem length_pos (s : Started) : 0 < max s.period 1 :=
  Nat.lt_of_lt_of_le Nat.one_pos (Nat.le_max_right _ _)

theorem ticks_of_le (s : Started) {now : Nat} (h : now ≤ s.time) : s.ticks now = 0 := by
  rw [ticks, Nat.sub_eq_zero_of_le h, Nat.zero_div]

/-- A ticker has not ticked when it is started. -/
theorem start_eq (name : String) (period time : Nat) (stopped : Bool) {now : Nat}
    (h : now ≤ time) :
    Ticker.start name period time stopped = ticker ⟨name, period, time⟩ now stopped := by
  simp [Ticker.start, ticker, ticks_of_le ⟨name, period, time⟩ h]

/-- The next tick is yet to come. -/
theorem lt_due (s : Started) (now : Nat) (stopped : Bool) : now < (s.ticker now stopped).due := by
  have hlt := Nat.lt_mul_div_succ (now - s.time) s.length_pos
  rw [Nat.mul_comm] at hlt
  simp only [ticker, ticks]
  omega

/-- One pass of the loop takes a ticker to the time when its next tick is due. -/
theorem tick_ticker (s : Started) (now : Nat) (stopped : Bool) :
    (s.ticker now stopped).tick = s.ticker (s.ticker now stopped).due stopped := by
  have hticks : s.ticks (s.ticker now stopped).due = s.ticks now + 1 := by
    rw [ticks, ticker, Nat.add_sub_cancel_left, Nat.mul_div_cancel _ s.length_pos]
  have hnext : s.ticker (s.ticker now stopped).due stopped =
      ⟨s.name, max s.period 1,
        s.time + (s.ticks (s.ticker now stopped).due + 1) * max s.period 1,
        s.ticks (s.ticker now stopped).due, stopped⟩ := rfl
  rw [hnext, hticks, Nat.succ_mul (s.ticks now + 1), ← Nat.add_assoc]
  rfl

theorem ticker_congr (s : Started) {now later : Nat} (hle : now ≤ later)
    (hlt : later < (s.ticker now false).due) (stopped : Bool) :
    s.ticker later stopped = s.ticker now stopped := by
  have hticks : s.ticks later = s.ticks now := by
    refine Nat.div_eq_of_lt_le ?_ ?_
    · exact Nat.le_trans (Nat.div_mul_le_self _ _) (by omega)
    · have hpos : 0 < (s.ticks now + 1) * max s.period 1 :=
        Nat.mul_pos (Nat.succ_pos _) s.length_pos
      simp only [ticker] at hlt
      omega
  rw [ticker, hticks, ← ticker]

/-- **Where a ticker stands does not depend on the steps of the clock**, by induction on the ticks
that are due. -/
theorem moveTo_ticker (s : Started) {now later : Nat} (h : now ≤ later) :
    (s.ticker now false).moveTo later = s.ticker later false := by
  by_cases hdue : (s.ticker now false).due ≤ later
  · have hlt := s.lt_due now false
    rw [Ticker.moveTo_of_due rfl s.length_pos hdue, tick_ticker]
    exact moveTo_ticker s hdue
  · rw [Ticker.moveTo_of_not_due (Nat.not_le.1 hdue), s.ticker_congr h (Nat.not_le.1 hdue)]
termination_by later - now

end Started

/-! ## The clock of a session -/

/-- How far an action moves the clock. A wait that is over at once does not move it. -/
def Action.moves (past : List Action) : Action → Nat
  | .advance ms => ms
  | .wait ms => if wasTriggered past then 0 else ms
  | _ => 0

/-- The sum of all moves of the clock. -/
def clock : List Action → Nat
  | [] => 0
  | a :: past => clock past + a.moves past

/-- The time up to which tickers run: the time of the first trigger, or the time it is. -/
def tickingTime : List Action → Nat
  | [] => 0
  | a :: past => if wasTriggered past then tickingTime past else clock (a :: past)

def Action.starts? (past : List Action) : Action → Option Started
  | .startTicker name period => some ⟨name, period, clock past⟩
  | _ => none

/-- The tickers that a session started, the earliest first. -/
def started : List Action → List Started
  | [] => []
  | a :: past => started past ++ (a.starts? past).toList

section Clock

variable {past : List Action} {a : Action}

theorem wasTriggered_cons (h : a.isTrigger = false) :
    wasTriggered (a :: past) = wasTriggered past := by
  rw [wasTriggered, List.any_cons, h, Bool.false_or, wasTriggered]

theorem started_cons (h : a.starts? past = none) : started (a :: past) = started past := by
  rw [started, h, Option.toList_none, List.append_nil]

theorem tickingTime_of_not_triggered (h : wasTriggered past = false) :
    tickingTime past = clock past := by
  cases past with
  | nil => rfl
  | cons a past =>
    have hcons : (a.isTrigger || wasTriggered past) = false := h
    have hpast : wasTriggered past = false := (Bool.or_eq_false_iff.1 hcons).2
    rw [tickingTime, hpast, if_neg Bool.false_ne_true]

theorem tickingTime_le_clock (past : List Action) : tickingTime past ≤ clock past := by
  induction past with
  | nil => exact Nat.le_refl _
  | cons a past ih =>
    rw [tickingTime]
    split
    · exact Nat.le_trans ih (Nat.le_add_right _ _)
    · exact Nat.le_refl _

/-- An action that does not move the clock leaves the tickers their time. -/
theorem tickingTime_cons (h : a.moves past = 0) : tickingTime (a :: past) = tickingTime past := by
  rw [tickingTime, clock, h, Nat.add_zero]
  split
  · rfl
  · rw [tickingTime_of_not_triggered (Bool.eq_false_iff.2 ‹_›)]

theorem tickingTime_append (h : wasTriggered past = true) (later : List Action) :
    tickingTime (later ++ past) = tickingTime past := by
  induction later with
  | nil => rfl
  | cons a later ih =>
    rw [List.cons_append, tickingTime, wasTriggered_append h, if_pos rfl, ih]

theorem started_append (later past : List Action) :
    ∃ more, started (later ++ past) = started past ++ more := by
  induction later with
  | nil => exact ⟨[], (List.append_nil _).symm⟩
  | cons a later ih =>
    obtain ⟨more, hmore⟩ := ih
    exact ⟨more ++ (a.starts? (later ++ past)).toList, by
      rw [List.cons_append, started, hmore, List.append_assoc]⟩

end Clock

/-! ## The tickers of a session -/

/-- An action on the registry leaves the clock and the tickers alone. -/
theorem tickers_act_registry {past : List Action} {s : State} (h : Recorded past s) {a : Action}
    (ha : (∃ label recipe source lazy, a = .register label recipe source lazy) ∨
      ∃ fullName type, a = .get fullName type) :
    (s.act a).after.now = s.now ∧ (s.act a).after.tickers = s.tickers := by
  rcases ha with ⟨label, recipe, source, lazy, rfl⟩ | ⟨fullName, type, rfl⟩
  · cases hX : registered? past (recipe.fullName label) with
    | some slot =>
      rw [h.act_register_taken hX]
      exact ⟨rfl, rfl⟩
    | none =>
      cases lazy with
      | true =>
        rw [h.act_register_lazy hX]
        exact ⟨rfl, rfl⟩
      | false =>
        rw [h.act_register_eager hX]
        exact ⟨rfl, rfl⟩
  · rcases h.act_get fullName type with ⟨e, -, -, hact⟩ | ⟨slot, -, -, ⟨-, hact⟩ | ⟨-, hact⟩⟩
    all_goals
      rw [hact]
      exact ⟨rfl, rfl⟩

/-- The hook stops the ticker at a position. -/
def Hook.stops (i : Nat) : Hook → Bool
  | .stopTicker _ (some j) => j == i
  | _ => false

theorem getElem?_stop (hook : Hook) (tickers : List Ticker) (i : Nat) :
    (hook.stop tickers)[i]? = tickers[i]?.map fun t => if hook.stops i then t.stop else t := by
  cases hook with
  | stopTicker name index =>
    cases index with
    | none => simp [Hook.stop, Hook.stops]
    | some j =>
      by_cases hj : j = i
      · subst hj
        simp [Hook.stop, Hook.stops, Ticker.stop]
      · simp [Hook.stop, Hook.stops, hj]
  | _ => simp [Hook.stop, Hook.stops]

theorem getElem?_foldl_stop (hooks : List Hook) (tickers : List Ticker) (i : Nat) :
    (hooks.foldl (fun tickers hook => hook.stop tickers) tickers)[i]? =
      tickers[i]?.map fun t => if hooks.any (·.stops i) then t.stop else t := by
  induction hooks generalizing tickers with
  | nil => simp
  | cons hook hooks ih =>
    rw [List.foldl_cons, ih, getElem?_stop, Option.map_map]
    refine congrArg (fun f => tickers[i]?.map f) (funext fun t => ?_)
    rw [Function.comp_apply, List.any_cons]
    cases hook.stops i with
    | false => rw [Bool.false_or, if_neg Bool.false_ne_true]
    | true => cases hooks.any (·.stops i) <;> rfl

/-- Where there is a hook for every position, all tickers are stopped. -/
theorem foldl_stop_eq_map {hooks : List Hook} {tickers : List Ticker}
    (h : ∀ i < tickers.length, ∃ hook ∈ hooks, hook.stops i = true) :
    hooks.foldl (fun tickers hook => hook.stop tickers) tickers = tickers.map Ticker.stop := by
  refine List.ext_getElem? fun i => ?_
  rw [getElem?_foldl_stop, List.getElem?_map]
  by_cases hi : i < tickers.length
  · have hany : hooks.any (·.stops i) = true := List.any_eq_true.2 (h i hi)
    simp only [hany, if_true]
  · rw [List.getElem?_eq_none (Nat.not_lt.1 hi)]
    rfl

theorem map_stop_ticker (starts : List Started) (now : Nat) (stopped : Bool) :
    (starts.map (·.ticker now stopped)).map Ticker.stop = starts.map (·.ticker now true) := by
  rw [List.map_map]
  rfl

theorem map_moveTo_ticker (starts : List Started) {now later : Nat} (h : now ≤ later) :
    (starts.map (·.ticker now false)).map (·.moveTo later) = starts.map (·.ticker later false) := by
  rw [List.map_map]
  exact List.map_congr_left fun s _ => s.moveTo_ticker h

theorem map_moveTo_ticker_of_stopped (starts : List Started) (now later : Nat) :
    (starts.map (·.ticker now true)).map (·.moveTo later) = starts.map (·.ticker now true) := by
  rw [List.map_map]
  exact List.map_congr_left fun s _ => Ticker.moveTo_of_stopped rfl later

/-- The clock and the tickers are what the history says of them, and the hooks that were added stop
every ticker. -/
structure OnClock (past : List Action) : Prop where
  now_eq : (run past).now = clock past
  tickers_eq : (run past).tickers =
    (started past).map (·.ticker (tickingTime past) (wasTriggered past))
  stopped : ∀ i < (started past).length, ∃ hook ∈ hooksAdded past, hook.stops i = true

namespace OnClock

variable {past : List Action} {a : Action}

theorem nil : OnClock [] := ⟨rfl, rfl, nofun⟩

theorem exists_stops_cons (h : OnClock past) {i : Nat} (hi : i < (started past).length) :
    ∃ hook ∈ hooksAdded (a :: past), hook.stops i = true := by
  obtain ⟨hook, hmem, hstops⟩ := h.stopped i hi
  exact ⟨hook, List.mem_append_right _ hmem, hstops⟩

/-- An action that neither moves the clock nor touches a ticker. -/
theorem cons_of_idle (h : OnClock past) (htrigger : a.isTrigger = false)
    (hmoves : a.moves past = 0) (hstarts : a.starts? past = none)
    (hafter : (run (a :: past)).now = (run past).now ∧
      (run (a :: past)).tickers = (run past).tickers) : OnClock (a :: past) where
  now_eq := by rw [hafter.1, h.now_eq, clock, hmoves, Nat.add_zero]
  tickers_eq := by
    rw [hafter.2, h.tickers_eq, wasTriggered_cons htrigger, started_cons hstarts,
      tickingTime_cons hmoves]
  stopped := by
    rw [started_cons hstarts]
    exact fun i hi => h.exists_stops_cons hi

/-- A move of the clock takes along the tickers that run. -/
theorem cons_of_move (h : OnClock past) (htrigger : a.isTrigger = false)
    (hstarts : a.starts? past = none)
    (hafter : run (a :: past) = (run past).advance (a.moves past)) : OnClock (a :: past) where
  now_eq := by
    rw [hafter, clock, ← h.now_eq]
    rfl
  tickers_eq := by
    have hmoved : (run (a :: past)).tickers =
        (run past).tickers.map (·.moveTo (clock (a :: past))) := by
      rw [hafter, clock, ← h.now_eq]
      rfl
    rw [hmoved, h.tickers_eq, wasTriggered_cons htrigger, started_cons hstarts]
    cases hpast : wasTriggered past with
    | true =>
      rw [map_moveTo_ticker_of_stopped, tickingTime, hpast, if_pos rfl]
    | false =>
      have hle : clock past ≤ clock (a :: past) := Nat.le_add_right _ _
      rw [tickingTime_of_not_triggered hpast, map_moveTo_ticker _ hle,
        tickingTime_of_not_triggered ((wasTriggered_cons htrigger).trans hpast)]
  stopped := by
    rw [started_cons hstarts]
    exact fun i hi => h.exists_stops_cons hi

theorem cons_startTicker (h : OnClock past) (name : String) (period : Nat) :
    OnClock (.startTicker name period :: past) := by
  have hstarted : started (.startTicker name period :: past) =
      started past ++ [⟨name, period, clock past⟩] := rfl
  have hafter : (run (.startTicker name period :: past)).tickers =
      (run past).tickers ++ [.start name period (clock past) (wasTriggered past)] := by
    rw [← h.now_eq, ← triggered_run]
    rfl
  have htime : tickingTime (.startTicker name period :: past) = tickingTime past :=
    tickingTime_cons rfl
  constructor
  · exact h.now_eq
  · rw [hafter, hstarted, htime, h.tickers_eq, List.map_append,
      Started.start_eq name period _ _ (tickingTime_le_clock past)]
    rfl
  · intro i hi
    rw [hstarted, List.length_append] at hi
    rcases Nat.lt_succ_iff_lt_or_eq.1 hi with hlt | rfl
    · exact h.exists_stops_cons hlt
    · refine ⟨.stopTicker name (some (run past).tickers.length), List.mem_cons_self, ?_⟩
      rw [h.tickers_eq, List.length_map, Hook.stops, beq_self_eq_true]

/-- The first trigger stops all tickers, each by the hook that it left. -/
theorem cons_trigger (h : OnClock past) : OnClock (.trigger :: past) := by
  have hstarted : started (.trigger :: past) = started past := started_cons rfl
  have hwas : wasTriggered (.trigger :: past) = true := rfl
  have htime : tickingTime (.trigger :: past) = tickingTime past := tickingTime_cons rfl
  have hshutdown := shutdown_run past
  have hafter : (Session.run (.trigger :: past)).now = (Session.run past).now ∧
      (Session.run (.trigger :: past)).tickers = (Session.run past).tickers.map Ticker.stop := by
    have hrun : Session.run (.trigger :: past) = (Session.run past).trigger.1 := rfl
    rw [hrun]
    cases hpast : wasTriggered past with
    | true =>
      rw [hpast] at hshutdown
      rw [State.trigger_of_triggered (by rw [hshutdown]; rfl), h.tickers_eq, hpast,
        map_stop_ticker]
      exact ⟨rfl, rfl⟩
    | false =>
      rw [hpast] at hshutdown
      rw [State.trigger_of_not_triggered (by rw [hshutdown]; rfl), hshutdown]
      refine ⟨rfl, foldl_stop_eq_map fun i hi => h.stopped i ?_⟩
      rwa [h.tickers_eq, List.length_map] at hi
  refine ⟨hafter.1.trans h.now_eq, ?_, ?_⟩
  · rw [hafter.2, h.tickers_eq, map_stop_ticker, hstarted, hwas, htime]
  · rw [hstarted]
    exact fun i hi => h.exists_stops_cons hi

theorem cons_wait (h : OnClock past) (ms : Nat) : OnClock (.wait ms :: past) := by
  have hrun : Session.run (.wait ms :: past) =
      if wasTriggered past then Session.run past else (Session.run past).advance ms :=
    (turn_wait past ms).2
  cases hpast : wasTriggered past with
  | true =>
    have hmoves : (Action.wait ms).moves past = 0 := if_pos hpast
    rw [hpast, if_pos rfl] at hrun
    exact h.cons_of_idle rfl hmoves rfl (by rw [hrun]; exact ⟨rfl, rfl⟩)
  | false =>
    have hmoves : (Action.wait ms).moves past = ms := by simp [Action.moves, hpast]
    rw [hpast, if_neg Bool.false_ne_true] at hrun
    exact h.cons_of_move rfl rfl (by rw [hrun, hmoves])

/-- **Every session keeps to its clock.** -/
theorem run (past : List Action) : OnClock past := by
  induction past with
  | nil => exact nil
  | cons a past ih =>
    cases a with
    | trigger => exact ih.cons_trigger
    | startTicker name period => exact ih.cons_startTicker name period
    | advance ms => exact ih.cons_of_move rfl rfl rfl
    | wait ms => exact ih.cons_wait ms
    | register label recipe source lazy =>
      exact ih.cons_of_idle rfl rfl rfl
        (tickers_act_registry (.run past) (.inl ⟨label, recipe, source, lazy, rfl⟩))
    | get fullName type =>
      exact ih.cons_of_idle rfl rfl rfl
        (tickers_act_registry (.run past) (.inr ⟨fullName, type, rfl⟩))
    | _ => exact ih.cons_of_idle rfl rfl rfl ⟨rfl, rfl⟩

end OnClock

/-! ## What is seen of the tickers -/

section Seen

variable {past : List Action}

theorem getElem?_started (before later : List Action) (name : String) (period : Nat) :
    (started (later ++ .startTicker name period :: before))[(started before).length]? =
      some ⟨name, period, clock before⟩ := by
  obtain ⟨more, hmore⟩ := started_append later (.startTicker name period :: before)
  have hcons : started (.startTicker name period :: before) =
      started before ++ [⟨name, period, clock before⟩] := rfl
  rw [hmore, hcons, List.append_assoc, List.getElem?_append_right (Nat.le_refl _), Nat.sub_self]
  rfl

/-- The ticker that an action started stays in its position. -/
theorem getElem?_tickers (before later : List Action) (name : String) (period : Nat) :
    let past := later ++ .startTicker name period :: before
    (run past).tickers[(started before).length]? =
      some (Started.ticker ⟨name, period, clock before⟩ (tickingTime past)
        (wasTriggered past)) := by
  intro past
  rw [(OnClock.run past).tickers_eq, List.getElem?_map, getElem?_started]
  rfl

/-- Whatever is done after a trigger, a ticker stays as it stopped then. -/
theorem getElem?_tickers_after_trigger (before later : List Action) (name : String) (period : Nat)
    (more : List Action) :
    let past := later ++ .startTicker name period :: before
    (run (more ++ .trigger :: past)).tickers[(started before).length]? =
      some (Started.ticker ⟨name, period, clock before⟩ (tickingTime past) true) := by
  intro past
  have htriggered : wasTriggered (.trigger :: past) = true := rfl
  have htickers := getElem?_tickers before (more ++ .trigger :: later) name period
  have hassoc : more ++ .trigger :: later ++ .startTicker name period :: before =
      more ++ .trigger :: past := by
    rw [List.append_assoc, List.cons_append]
  simp only [hassoc] at htickers
  rw [htickers, tickingTime_append htriggered, wasTriggered_append htriggered,
    tickingTime_cons rfl]

/-- Of the tickers with one name, the list shows the newest. -/
theorem find?_ticks (s : State) (name : String) :
    s.ticks.find? (·.1 == name) =
      (s.tickers.reverse.find? (·.name == name)).map fun t => (name, t) := by
  rw [State.ticks]
  induction s.tickers using List.reverseRecOn with
  | nil => rfl
  | append_singleton tickers t ih =>
    rw [List.foldl_append, List.foldl_cons, List.foldl_nil, find?_insertSorted, ih,
      List.reverse_append, List.reverse_singleton, List.singleton_append]
    by_cases hname : t.name = name
    · simp [hname]
    · simp [hname]

theorem ascending_ticks (s : State) : Ascending s.ticks := by
  rw [State.ticks]
  induction s.tickers using List.reverseRecOn with
  | nil => exact List.Pairwise.nil
  | append_singleton tickers t ih =>
    rw [List.foldl_append]
    exact ascending_insertSorted t.name t ih

/-- The action does nothing but move the clock. -/
def Action.isMove : Action → Bool
  | .advance _ => true
  | .wait _ => true
  | _ => false

/-- After moves of the clock nothing has changed but the time and the tickers. -/
theorem run_moves {moves : List Action} (hmoves : ∀ a ∈ moves, a.isMove = true)
    (past : List Action) :
    (run (moves ++ past)).slots = (run past).slots ∧
      (run (moves ++ past)).shutdown = (run past).shutdown ∧
      started (moves ++ past) = started past ∧
      wasTriggered (moves ++ past) = wasTriggered past := by
  induction moves with
  | nil => exact ⟨rfl, rfl, rfl, rfl⟩
  | cons a moves ih =>
    obtain ⟨hslots, hshutdown, hstarted, htriggered⟩ :=
      ih fun b hb => hmoves b (List.mem_cons_of_mem _ hb)
    rw [← hslots, ← hshutdown, ← hstarted, ← htriggered]
    cases a with
    | advance ms => exact ⟨rfl, rfl, List.append_nil _, rfl⟩
    | wait ms =>
      exact ⟨State.slots_wait (run (moves ++ past)) ms,
        State.shutdown_wait (run (moves ++ past)) ms, List.append_nil _, rfl⟩
    | _ => cases hmoves _ List.mem_cons_self

/-- **In whatever steps the clock is moved**, it comes to the same. -/
theorem run_moves_congr {moves moves' : List Action} (h : ∀ a ∈ moves, a.isMove = true)
    (h' : ∀ a ∈ moves', a.isMove = true)
    (hclock : clock (moves ++ past) = clock (moves' ++ past)) :
    run (moves ++ past) = run (moves' ++ past) := by
  obtain ⟨hslots, hshutdown, hstarted, htriggered⟩ := run_moves h past
  obtain ⟨hslots', hshutdown', hstarted', htriggered'⟩ := run_moves h' past
  have htime : tickingTime (moves ++ past) = tickingTime (moves' ++ past) := by
    cases hpast : wasTriggered past with
    | true => rw [tickingTime_append hpast, tickingTime_append hpast]
    | false =>
      rw [tickingTime_of_not_triggered (htriggered.trans hpast),
        tickingTime_of_not_triggered (htriggered'.trans hpast), hclock]
  have hnow : (run (moves ++ past)).now = (run (moves' ++ past)).now := by
    rw [(OnClock.run _).now_eq, (OnClock.run _).now_eq, hclock]
  have htickers : (run (moves ++ past)).tickers = (run (moves' ++ past)).tickers := by
    rw [(OnClock.run _).tickers_eq, (OnClock.run _).tickers_eq, hstarted, hstarted', htriggered,
      htriggered', htime]
  have eta (s : State) : s = ⟨s.now, s.shutdown, s.slots, s.tickers⟩ := rfl
  rw [eta (run (moves ++ past)), eta (run (moves' ++ past)), hnow, htickers, hshutdown, hshutdown',
    hslots, hslots']

end Seen

/-- **A ticker ticks once a period until shutdown.** For every session and every ticker in it:

* before shutdown is triggered it has ticked once for each whole period since its start, on the
  clock that is the sum of all moves;
* a trigger stops it with the ticks that it has, whatever is done later, and one that is started
  after a trigger never ticks;
* moves of the clock may be split, merged and put in another order, and nothing differs;
* of the tickers with one name, the list of all shows the newest. -/
theorem ticks_once_a_period (before later : List Action) (name : String) (period : Nat) :
    let past := later ++ .startTicker name period :: before
    let place := (started before).length
    (run past).now = clock past ∧
    (∃ t, (run past).tickers[place]? = some t ∧ t.name = name ∧
      t.stopped = wasTriggered past ∧
      (wasTriggered past = false → t.count = (clock past - clock before) / max period 1) ∧
      (∀ more, (run (more ++ .trigger :: past)).tickers[place]? = some t.stop) ∧
      (wasTriggered before = true → t.count = 0)) ∧
    (∀ moves moves', (∀ a ∈ moves ++ moves', a.isMove = true) →
      clock (moves ++ past) = clock (moves' ++ past) →
      run (moves ++ past) = run (moves' ++ past)) ∧
    ∃ rows, (turn past .ticks).answer = .ticks rows ∧ Ascending rows ∧
      ∀ shown, rows.find? (·.1 == shown) =
        ((run past).tickers.reverse.find? (·.name == shown)).map fun t => (shown, t) := by
  intro past place
  have htickers := getElem?_tickers before later name period
  refine ⟨(OnClock.run past).now_eq, ⟨_, htickers, rfl, rfl, fun hpast => ?_,
    getElem?_tickers_after_trigger before later name period, fun hbefore => ?_⟩,
    fun moves moves' hmoves => ?_, _, rfl, ascending_ticks _, find?_ticks _⟩
  · rw [← tickingTime_of_not_triggered hpast]
    rfl
  · have hstart : wasTriggered (.startTicker name period :: before) = true := hbefore
    have htime : tickingTime past ≤ clock before := by
      rw [tickingTime_append hstart]
      exact tickingTime_le_clock (.startTicker name period :: before)
    exact Started.ticks_of_le _ htime
  · obtain ⟨h, h'⟩ := List.forall_mem_append.1 hmoves
    exact run_moves_congr h h'

/-- A ticker whose period does not fit the moves of the clock, beside one without a period that has
the same name, and the clock goes on after shutdown. -/
theorem ticks_once_a_period_out_of_step :
    let before : List Action := [.wait 7]
    let later : List Action :=
      [.wait 8, .advance 5, .startTicker "probe" 0, .advance 9, .advance 16]
    let past := later ++ .startTicker "probe" 10 :: before
    wasTriggered past = false ∧ clock past = 45 ∧ clock before = 7 ∧
      (∃ t, (run past).tickers[0]? = some t ∧ t.count = 3 ∧
        ∀ more, (run (more ++ .trigger :: past)).tickers[0]? = some t.stop) ∧
      run ([.advance 1, .wait 4] ++ past) = run ([.advance 5] ++ past) := by
  intro before later past
  obtain ⟨-, ⟨t, ht, -, -, hcount, hstop, -⟩, hmoves, -⟩ :=
    ticks_once_a_period before later "probe" 10
  exact ⟨rfl, rfl, rfl, ⟨t, ht, (hcount rfl).trans (by decide), hstop⟩, hmoves _ _ (by decide) rfl⟩

end Chassis.Session
