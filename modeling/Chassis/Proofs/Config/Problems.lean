import Chassis.Config.Loader
import Chassis.Endpoint.Listener
import Mathlib.Data.List.DropRight
import Mathlib.Data.List.Induction

/-!
# The problems of settings

> **what is reported of settings is exactly what is wrong with them, and settings that are loaded
> can be listened on** (`Config.problems_exact`).

Each place to listen is reported on by itself, in view of the places before it: `Listener.Reported`
says what is to be told of it. The check keeps a table of the addresses it has passed, in which a
later place covers an earlier one at the same address; what makes the two agree is that looking an
address up in that table is looking back for the nearest place that takes it (`lookup_table`).
-/

set_option autoImplicit false

namespace Chassis

open Net

/-! ## Blank texts -/

namespace Text

/-- A text is blank when trimming leaves nothing of it. -/
theorem isBlank_iff (s : String) : isBlank s = true ↔ trim s = "" := by
  have htrim : trim s = "" ↔ ∀ c ∈ s.toList.dropWhile isBlankChar, isBlankChar c = true := by
    rw [← List.rdropWhile_eq_nil_iff, trim, ← String.toList_inj, String.toList_ofList]
    rfl
  rw [htrim, isBlank, List.all_eq_true]
  constructor
  · intro h c hc
    exact h c (List.dropWhile_sublist isBlankChar |>.mem hc)
  · intro h
    -- What trimming leaves in front starts with a character that is not blank.
    have hnil : s.toList.dropWhile isBlankChar = [] := by
      by_contra hne
      have hhead := List.head_dropWhile_not isBlankChar hne
      rw [h _ (List.head_mem hne)] at hhead
      cases hhead
    exact List.dropWhile_eq_nil_iff.1 hnil

end Text

/-! ## What is to be reported -/

/-- The place is enabled and its text stands for the address. -/
def Listener.Takes (l : Listener) (a : SocketAddress) : Prop :=
  l.enabled = true ∧ SocketAddress.ofText? l.address = some a

/-- What is to be told of a place to listen, given its name and the places before it: that its text
is no address, that the nearest place before it with the same address has it already, or nothing. -/
inductive Listener.Reported (earlier : List (String × Listener)) (name : String) (l : Listener) :
    List Problem → Prop
  | disabled (h : l.enabled = false) : Reported earlier name l []
  | invalid (h : l.enabled = true) (htext : SocketAddress.ofText? l.address = none) :
      Reported earlier name l [.invalidAddress name l.address]
  | anyPort {a : SocketAddress} (h : l.Takes a) (hport : a.port = 0) : Reported earlier name l []
  | conflict {a : SocketAddress} (h : l.Takes a) (hport : a.port ≠ 0)
      {before between : List (String × Listener)} {first : String} {other : Listener}
      (hearlier : earlier = before ++ (first, other) :: between) (hother : other.Takes a)
      (hnearest : ∀ e ∈ between, ¬ e.2.Takes a) :
      Reported earlier name l [.addressConflict first name a]
  | free {a : SocketAddress} (h : l.Takes a) (hport : a.port ≠ 0)
      (hfree : ∀ e ∈ earlier, ¬ e.2.Takes a) : Reported earlier name l []

/-- What is to be told of places to listen, one after another. -/
inductive Listener.AllReported : List (String × Listener) → List (String × Listener) →
    List Problem → Prop
  | nil (earlier : List (String × Listener)) : AllReported earlier [] []
  | cons {earlier rest : List (String × Listener)} {name : String} {l : Listener}
      {ps qs : List Problem} (head : l.Reported earlier name ps)
      (tail : AllReported (earlier ++ [(name, l)]) rest qs) :
      AllReported earlier ((name, l) :: rest) (ps ++ qs)

namespace Config

/-! ## The table of addresses -/

/-- What the table lists of a place: its address, if that can clash, and its name. -/
def listed? (e : String × Listener) : Option (SocketAddress × String) :=
  if e.2.enabled then
    match SocketAddress.ofText? e.2.address with
    | none => none
    | some a => if a.port = 0 then none else some (a, e.1)
  else none

theorem listed?_eq_some_iff (e : String × Listener) (a : SocketAddress) (name : String) :
    listed? e = some (a, name) ↔ e.2.Takes a ∧ a.port ≠ 0 ∧ e.1 = name := by
  rw [listed?, Listener.Takes]
  cases e.2.enabled with
  | false => simp
  | true =>
    cases SocketAddress.ofText? e.2.address with
    | none => simp
    | some b =>
      by_cases hport : b.port = 0
      · simp only [hport, ↓reduceIte, reduceCtorEq, true_and, Option.some.injEq, false_iff, not_and]
        rintro rfl hne
        exact absurd hport hne
      · simp only [hport, ↓reduceIte, Option.some.injEq, Prod.mk.injEq, true_and]
        constructor
        · rintro ⟨rfl, rfl⟩
          exact ⟨rfl, hport, rfl⟩
        · rintro ⟨rfl, -, rfl⟩
          exact ⟨rfl, rfl⟩

/-- The table behind some places, the nearest entry first. -/
def table (earlier : List (String × Listener)) : List (SocketAddress × String) :=
  (earlier.filterMap listed?).reverse

theorem table_concat (earlier : List (String × Listener)) (e : String × Listener) :
    table (earlier ++ [e]) = (listed? e).toList ++ table earlier := by
  rw [table, table, List.filterMap_append, List.reverse_append]
  cases h : listed? e with
  | none => simp [h]
  | some entry => simp [h]

/-- Looking an address up in the table is looking back for the nearest place that takes it. -/
theorem lookup_table (earlier : List (String × Listener)) {a : SocketAddress}
    (hport : a.port ≠ 0) :
    ((table earlier).lookup a = none ∧ ∀ e ∈ earlier, ¬ e.2.Takes a) ∨
      ∃ before first other between, (table earlier).lookup a = some first ∧
        earlier = before ++ (first, other) :: between ∧ other.Takes a ∧
        ∀ e ∈ between, ¬ e.2.Takes a := by
  induction earlier using List.reverseRecOn with
  | nil => exact .inl ⟨rfl, by simp⟩
  | append_singleton earlier e ih =>
    by_cases htakes : e.2.Takes a
    case pos =>
      have hentry : listed? e = some (a, e.1) :=
        (listed?_eq_some_iff e a e.1).2 ⟨htakes, hport, rfl⟩
      refine .inr ⟨earlier, e.1, e.2, [], ?_, rfl, htakes, by simp⟩
      rw [table_concat, hentry]
      simp
    case neg =>
      -- An entry for another address, or none, is passed over.
      have hlookup : (table (earlier ++ [e])).lookup a = (table earlier).lookup a := by
        rw [table_concat]
        cases hentry : listed? e with
        | none => rfl
        | some entry =>
          obtain ⟨b, name⟩ := entry
          obtain ⟨hb, -, -⟩ := (listed?_eq_some_iff e b name).1 hentry
          have hne : (a == b) = false := beq_eq_false_iff_ne.2 fun hab => htakes (hab ▸ hb)
          rw [Option.toList_some, List.singleton_append, List.lookup_cons, hne]
      rw [hlookup]
      rcases ih with ⟨hnone, hfree⟩ |
        ⟨before, first, other, between, hsome, hearlier, hother, hbetween⟩
      · refine .inl ⟨hnone, fun e' he' => ?_⟩
        rcases List.mem_append.1 he' with he' | he'
        · exact hfree e' he'
        · obtain rfl := List.mem_singleton.1 he'
          exact htakes
      · refine .inr ⟨before, first, other, between ++ [e], hsome, ?_, hother, fun e' he' => ?_⟩
        · rw [hearlier, List.append_assoc, List.cons_append]
        · rcases List.mem_append.1 he' with he' | he'
          · exact hbetween e' he'
          · obtain rfl := List.mem_singleton.1 he'
            exact htakes

/-! ## What is reported -/

theorem allReported_listenerProblems (ls earlier : List (String × Listener)) :
    Listener.AllReported earlier ls (listenerProblems (table earlier) ls) := by
  induction ls generalizing earlier with
  | nil => exact .nil earlier
  | cons e rest ih =>
    obtain ⟨name, l⟩ := e
    have hrest := ih (earlier ++ [(name, l)])
    rw [table_concat] at hrest
    rw [listenerProblems]
    cases henabled : l.enabled with
    | false =>
      have hentry : listed? (name, l) = none := by simp [listed?, henabled]
      rw [hentry] at hrest
      exact .cons (.disabled henabled) hrest
    | true =>
      simp only [Bool.not_true, Bool.false_eq_true, ↓reduceIte]
      cases htext : SocketAddress.ofText? l.address with
      | none =>
        have hentry : listed? (name, l) = none := by simp [listed?, htext]
        rw [hentry] at hrest
        exact .cons (.invalid henabled htext) hrest
      | some a =>
        have htakes : l.Takes a := ⟨henabled, htext⟩
        by_cases hport : a.port = 0
        · have hentry : listed? (name, l) = none := by simp [listed?, htext, hport]
          rw [hentry] at hrest
          simp only [hport, ↓reduceIte]
          exact .cons (.anyPort htakes hport) hrest
        · have hentry : listed? (name, l) = some (a, name) :=
            (listed?_eq_some_iff _ a name).2 ⟨htakes, hport, rfl⟩
          rw [hentry] at hrest
          simp only [hport, ↓reduceIte]
          rcases lookup_table earlier hport with ⟨hnone, hfree⟩ |
            ⟨before, first, other, between, hsome, hearlier, hother, hbetween⟩
          · rw [hnone]
            exact .cons (.free htakes hport hfree) hrest
          · rw [hsome]
            exact .cons (.conflict htakes hport hearlier hother hbetween) hrest

/-- The problems of the places to listen, told one place after another. -/
theorem reported_listenerProblems (c : Config) : ∃ rest metrics rpc,
    c.endpoints.rest.Reported [] "rest" rest ∧
      c.endpoints.metrics.Reported [("rest", c.endpoints.rest)] "metrics" metrics ∧
      c.endpoints.rpc.Reported
        [("rest", c.endpoints.rest), ("metrics", c.endpoints.metrics)] "rpc" rpc ∧
      listenerProblems [] c.listeners = rest ++ metrics ++ rpc := by
  have h := allReported_listenerProblems c.listeners []
  rw [listeners] at h
  generalize hps : listenerProblems (table []) _ = ps at h
  cases h with
  | cons hrest h =>
    cases h with
    | cons hmetrics h =>
      cases h with
      | cons hrpc h =>
        cases h with
        | nil =>
          refine ⟨_, _, _, hrest, hmetrics, hrpc, hps.trans ?_⟩
          rw [List.append_nil, List.append_assoc]

/-! ## Settings without problems -/

end Config

/-- Nothing is told of an enabled place only if its text is an address, and one that no place before
it has, unless it asks for any port. -/
theorem Listener.Reported.exists_takes {earlier : List (String × Listener)} {name : String}
    {l : Listener} (h : l.Reported earlier name []) (henabled : l.enabled = true) :
    ∃ a, l.Takes a ∧ (a.port = 0 ∨ ∀ e ∈ earlier, ¬ e.2.Takes a) := by
  cases h with
  | disabled h => rw [h] at henabled; cases henabled
  | anyPort h hport => exact ⟨_, h, .inl hport⟩
  | free h _ hfree => exact ⟨_, h, .inr hfree⟩

/-- No start ends with a fault of the address where the text is one. -/
theorem ListeningEndpoint.start_ne_address {e : ListeningEndpoint} {a : SocketAddress}
    (h : SocketAddress.ofText? e.address = some a) (bind : SocketAddress → Option String)
    (text : String) : (e.start bind).2 ≠ .ended (.error (.address text)) := by
  rw [start]
  cases e.stopped with
  | true => simp
  | false =>
    cases e.frontEnd <;> cases e.handedOver <;> cases hbind : bind a <;> simp [h, hbind]

namespace Config

/-- What is loaded has no problems. -/
theorem problems_of_parse {content : String} {profile : Option String} {c : Config}
    (h : parse content profile = .ok c) : c.problems = [] := by
  rw [parse] at h
  split at h
  case h_1 => cases h
  case h_2 =>
    split at h
    case h_1 => cases h
    case h_2 read _ =>
      by_cases hproblems : (read.withProfile profile).problems.isEmpty = true
      · rw [if_pos hproblems] at h
        cases h
        exact List.isEmpty_iff.1 hproblems
      · rw [if_neg hproblems] at h
        cases h

/-- Where there are no problems, every enabled place has an address, and one of its own unless it
asks for any port. -/
theorem takes_of_problems_eq_nil {c : Config} (h : c.problems = []) :
    (∀ e ∈ c.listeners, e.2.enabled = true → ∃ a, e.2.Takes a) ∧
      c.listeners.Pairwise fun e e' => ∀ a, e.2.Takes a → e'.2.Takes a → a.port = 0 := by
  obtain ⟨rest, metrics, rpc, hrest, hmetrics, hrpc, hlist⟩ := c.reported_listenerProblems
  obtain ⟨-, hnone⟩ := List.append_eq_nil_iff.1 h
  rw [hlist] at hnone
  simp only [List.append_eq_nil_iff] at hnone
  obtain ⟨⟨rfl, rfl⟩, rfl⟩ := hnone
  have hclash : ∀ {earlier : List (String × Listener)} {name : String} {l : Listener},
      l.Reported earlier name [] → ∀ e ∈ earlier, ∀ a, e.2.Takes a → l.Takes a → a.port = 0 := by
    intro earlier name l hl e he a hea hla
    obtain ⟨b, hb, hfree⟩ := hl.exists_takes hla.1
    obtain rfl : a = b := Option.some.inj (hla.2.symm.trans hb.2)
    exact hfree.resolve_right fun hfree => hfree e he hea
  constructor
  · intro e he henabled
    simp only [listeners, List.mem_cons, List.not_mem_nil, or_false] at he
    rcases he with rfl | rfl | rfl
    · exact (hrest.exists_takes henabled).imp fun _ h => h.1
    · exact (hmetrics.exists_takes henabled).imp fun _ h => h.1
    · exact (hrpc.exists_takes henabled).imp fun _ h => h.1
  · simp only [listeners, List.pairwise_cons, List.mem_cons, List.not_mem_nil, or_false,
      forall_eq_or_imp, forall_eq, IsEmpty.forall_iff, implies_true, List.Pairwise.nil, and_true]
    exact ⟨⟨hclash hmetrics ("rest", c.endpoints.rest) (by simp),
      hclash hrpc ("rest", c.endpoints.rest) (by simp)⟩,
      hclash hrpc ("metrics", c.endpoints.metrics) (by simp)⟩

/-- **What is reported of settings is exactly what is wrong with them**: of the name, of the limits
and of each place to listen in view of those before it. Settings that are loaded have no problems,
so their enabled places have addresses, no two the same unless any port is asked for, and no
endpoint at one of them fails for its address. -/
theorem problems_exact (c : Config) :
    (∃ rest metrics rpc,
      c.endpoints.rest.Reported [] "rest" rest ∧
        c.endpoints.metrics.Reported [("rest", c.endpoints.rest)] "metrics" metrics ∧
        c.endpoints.rpc.Reported
          [("rest", c.endpoints.rest), ("metrics", c.endpoints.metrics)] "rpc" rpc ∧
        c.problems =
          (if Text.trim c.app.name = "" then [.emptyName] else []) ++
            (if c.shutdown.seconds = 0 then [.zeroLimit "shutdown.timeout_secs"] else []) ++
            (if c.http.seconds = 0 then [.zeroLimit "http.request_timeout_secs"] else []) ++
            (rest ++ metrics ++ rpc)) ∧
      ∀ content profile, parse content profile = .ok c →
        c.problems = [] ∧
          (∀ e ∈ c.listeners, e.2.enabled = true → ∃ a, e.2.Takes a) ∧
          (c.listeners.Pairwise fun e e' => ∀ a, e.2.Takes a → e'.2.Takes a → a.port = 0) ∧
          ∀ e ∈ c.listeners, e.2.enabled = true → ∀ endpoint : ListeningEndpoint,
            endpoint.address = e.2.address → ∀ bind text,
              (endpoint.start bind).2 ≠ .ended (.error (.address text)) := by
  constructor
  · obtain ⟨rest, metrics, rpc, hrest, hmetrics, hrpc, hlist⟩ := c.reported_listenerProblems
    refine ⟨rest, metrics, rpc, hrest, hmetrics, hrpc, ?_⟩
    rw [problems, hlist]
    simp only [Text.isBlank_iff]
  · intro content profile h
    have hnone := problems_of_parse h
    obtain ⟨htakes, hclash⟩ := takes_of_problems_eq_nil hnone
    refine ⟨hnone, htakes, hclash, ?_⟩
    intro e he henabled endpoint haddress bind text
    obtain ⟨a, -, ha⟩ := htakes e he henabled
    exact ListeningEndpoint.start_ne_address (haddress ▸ ha) bind text

example : Config.parse "" = .ok {} := by cbv

end Config

end Chassis
