import Chassis.RpcStatus

/-!
# Failures put together in steps

> **parts of a draft replace one another, layers around a result pile up**
> (`assembled_in_order`).

There are two ways to a failure, and the same words mean different things in them. A draft makes one
layer: of each sort of part the last one counts, so parts of different sorts may come in any order.
Around a result each step is a layer of its own: the last name is the first of the operations, and
the last code is the one that callers see.

What both have in common is how something is wrapped (`Subject.wrap_eq`): a failure brings its
layers along, a bare cause has none, and the root cause stays what it is. So both halves are about
lists of layers, and what is read off a failure follows.
-/

set_option autoImplicit false

namespace Chassis

/-! ## What a subject brings along -/

namespace Subject

def layers : Subject → List Layer
  | cause _ => []
  | failure f => f.layers

def root : Subject → Cause
  | cause c => c
  | failure f => f.root

/-- The names of the operations that something passed through before it is wrapped. -/
def ops : Subject → List String
  | cause _ => []
  | failure f => f.ops

def explicitCode : Subject → Option Code
  | cause _ => none
  | failure f => f.explicitCode

def description : Subject → String
  | cause c => c.message
  | failure f => f.description

def details : Subject → List Detail
  | cause c => c.details
  | failure f => f.details

def base : Subject → Option String
  | cause c => c.base
  | failure f => f.base

theorem wrap_eq (layer : Layer) (s : Subject) : s.wrap layer = ⟨layer, s.layers, s.root⟩ := by
  cases s <;> rfl

end Subject

/-! ## Drafts -/

namespace Part

def op? : Part → Option String
  | op name => some name
  | _ => none

def code? : Part → Option Code
  | code c => some c
  | _ => none

def subject? : Part → Option Subject
  | subject s => some s
  | _ => none

theorem subject?_eq_none_iff (p : Part) : p.subject? = none ↔ ∀ s, p ≠ subject s := by
  cases p <;> simp [subject?]

end Part

namespace Draft

theorem getLast?_cons_or {α : Type} (a : α) (as : List α) (start : Option α) :
    (a :: as).getLast?.or start = as.getLast?.or (some a) := by
  rw [List.getLast?_cons]
  cases as.getLast? <;> rfl

/-- Of each sort the last part counts, and what was there before if there is none. -/
theorem foldl_set (parts : List Part) (d : Draft) :
    parts.foldl set d =
      ⟨(parts.filterMap Part.op?).getLast?.or d.op, (parts.filterMap Part.code?).getLast?.or d.code,
        (parts.filterMap Part.subject?).getLast?.or d.subject⟩ := by
  induction parts generalizing d with
  | nil => rfl
  | cons p parts ih =>
    rw [List.foldl_cons, ih]
    cases p <;> simp only [set, List.filterMap_cons, Part.op?, Part.code?, Part.subject?,
      getLast?_cons_or]

theorem build_foldl_set (parts : List Part) :
    (parts.foldl set {}).build = (parts.filterMap Part.subject?).getLast?.map fun s =>
      ⟨⟨(parts.filterMap Part.op?).getLast?, (parts.filterMap Part.code?).getLast?⟩,
        s.layers, s.root⟩ := by
  rw [foldl_set, build]
  simp only [Option.or_none]
  congr 1
  funext s
  exact s.wrap_eq _

theorem build_eq_none_iff (parts : List Part) :
    (parts.foldl set {}).build = none ↔ ∀ s, .subject s ∉ parts := by
  rw [build_foldl_set, Option.map_eq_none_iff, List.getLast?_eq_none_iff,
    List.filterMap_eq_nil_iff]
  constructor
  · intro h s hs
    exact (Part.subject?_eq_none_iff _).1 (h _ hs) s rfl
  · intro h p hp
    refine (Part.subject?_eq_none_iff p).2 fun s hs => ?_
    exact h s (hs ▸ hp)

end Draft

/-! ## Layers around a result -/

namespace Failure

/-- What more layers do to a failure, the first of them next to it. -/
theorem foldl_wrap (later : List Layer) (f : Failure) :
    ∃ g : Failure,
      later.foldl (fun s layer => .failure (s.wrap layer)) (.failure f) = Subject.failure g ∧
        g.layers = later.reverse ++ f.layers ∧ g.root = f.root := by
  induction later generalizing f with
  | nil => exact ⟨f, rfl, rfl, rfl⟩
  | cons layer later ih =>
    obtain ⟨g, hg, hlayers, hroot⟩ := ih (f.wrap layer)
    refine ⟨g, hg, ?_, hroot⟩
    rw [hlayers, List.reverse_cons, List.append_assoc]
    rfl

theorem ops_of_layers {g : Failure} {steps : List Layer} {s : Subject}
    (h : g.layers = steps.reverse ++ s.layers) :
    g.ops = (steps.filterMap (·.op)).reverse.filter (· != "") ++ s.ops := by
  rw [ops, h, List.filterMap_append, List.filter_append, List.filterMap_reverse]
  cases s <;> rfl

theorem explicitCode_of_layers {g : Failure} {steps : List Layer} {s : Subject}
    (h : g.layers = steps.reverse ++ s.layers) :
    g.explicitCode = (steps.filterMap (·.code)).getLast?.or s.explicitCode := by
  rw [explicitCode, h, List.findSome?_append, List.getLast?_filterMap]
  cases s <;> rfl

end Failure

/-- A result that fails comes out as a failure with a layer for each step. -/
theorem exists_wrapError {α : Type} (first : Layer) (later : List Layer) (s : Subject) :
    ∃ f : Failure,
      wrapError (first :: later) (.error s : Except Subject α) = .error (.failure f) ∧
        f.layers = (first :: later).reverse ++ s.layers ∧ f.root = s.root := by
  obtain ⟨f, hf, hlayers, hroot⟩ := (s.wrap first).foldl_wrap later
  refine ⟨f, congrArg Except.error hf, ?_, ?_⟩
  · rw [hlayers, s.wrap_eq, List.reverse_cons, List.append_assoc]
    rfl
  · rw [hroot, s.wrap_eq]

/-! ## Both ways -/

/-- **Parts of a draft replace one another, layers around a result pile up.** A draft without a
subject makes nothing. Otherwise it makes one layer, of the last name and the last code, around all
that the last subject brings along, so the order between parts of different sorts makes no
difference. Around a result, a step that names an operation and a step that sets a code are layers
of their own: a success comes through as it is, and a failing result has the names from the last
step to the first in front of its own, the last code that was set or else its own, and everything
else of its own. -/
theorem assembled_in_order :
    (∀ parts : List Part,
      ((parts.foldl Draft.set {}).build = none ↔ ∀ s, .subject s ∉ parts) ∧
      ((parts.foldl Draft.set {}).build = (parts.filterMap Part.subject?).getLast?.map fun s =>
        ⟨⟨(parts.filterMap Part.op?).getLast?, (parts.filterMap Part.code?).getLast?⟩,
          s.layers, s.root⟩) ∧
      ∀ parts' : List Part, parts'.filterMap Part.op? = parts.filterMap Part.op? →
        parts'.filterMap Part.code? = parts.filterMap Part.code? →
        parts'.filterMap Part.subject? = parts.filterMap Part.subject? →
          (parts'.foldl Draft.set {}).build = (parts.foldl Draft.set {}).build) ∧
    ∀ (α : Type) (first : Layer) (later : List Layer),
      (∀ a : α, wrapError (first :: later) (.ok a) = .ok a) ∧
      ∀ s : Subject, ∃ f : Failure,
        wrapError (first :: later) (.error s : Except Subject α) = .error (.failure f) ∧
          f.ops = ((first :: later).filterMap (·.op)).reverse.filter (· != "") ++ s.ops ∧
          f.explicitCode = ((first :: later).filterMap (·.code)).getLast?.or s.explicitCode ∧
          f.root = s.root ∧ f.description = s.description ∧ f.details = s.details ∧
          f.base = s.base := by
  refine ⟨fun parts => ⟨Draft.build_eq_none_iff parts, Draft.build_foldl_set parts, ?_⟩,
    fun α first later => ⟨fun a => rfl, fun s => ?_⟩⟩
  · intro parts' hops hcodes hsubjects
    rw [Draft.build_foldl_set, Draft.build_foldl_set, hops, hcodes, hsubjects]
  · obtain ⟨f, hf, hlayers, hroot⟩ := exists_wrapError (α := α) first later s
    refine ⟨f, hf, Failure.ops_of_layers hlayers, Failure.explicitCode_of_layers hlayers, hroot,
      ?_, ?_, ?_⟩
    · rw [Failure.description, hroot]
      cases s <;> rfl
    · rw [Failure.details, hroot]
      cases s <;> rfl
    · rw [Failure.base, hroot]
      cases s <;> rfl

/-- The same two names and two codes make one layer in a draft, and four around a result. -/
example :
    let steps : List Layer := [⟨some "a", none⟩, ⟨none, some .internal⟩, ⟨some "b", none⟩,
      ⟨none, some .notFound⟩]
    let parts : List Part := [.op "a", .code .internal, .op "b", .subject (.cause (.other "x")),
      .code .notFound]
    (parts.foldl Draft.set {}).build.map (·.layers) = some [⟨some "b", some .notFound⟩] ∧
      wrapError (α := Unit) steps (.error (.cause (.other "x"))) =
        .error (.failure ⟨⟨none, some .notFound⟩, [⟨some "b", none⟩, ⟨none, some .internal⟩,
          ⟨some "a", none⟩], .other "x"⟩) :=
  ⟨rfl, rfl⟩

end Chassis
