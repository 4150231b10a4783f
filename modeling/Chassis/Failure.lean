import Chassis.Kind

/-!
# Failures

A failure is a root cause under one or more layers. Each layer may name the operation it was passing
through and may set a code. What a failure shows is determined layer by layer: its operations are
the names from the outside in, its code is the outermost one set, and its message, detail records
and base depend on the root cause alone, so a label never leaks into a message.
-/

set_option autoImplicit false

namespace Chassis

/-- An interruption of the surrounding work rather than a failure of it. -/
inductive Interruption
  | canceled
  | deadlineExceeded
deriving DecidableEq, Repr

def Interruption.message : Interruption → String
  | canceled => "operation canceled"
  | deadlineExceeded => "deadline exceeded"

def Interruption.code : Interruption → Code
  | canceled => .canceled
  | deadlineExceeded => .deadlineExceeded

/-- A failure as the RPC protocol tells it: a code, a message, and detail records as bytes. -/
structure RpcStatus where
  code : Code
  message : String
  details : List UInt8
deriving DecidableEq, Repr

/-- A failure that another instance told in an envelope. -/
structure Remote where
  message : String
  details : List Detail
deriving DecidableEq, Repr

inductive Cause
  | kind (k : Kind)
  | status (s : RpcStatus)
  | remote (r : Remote)
  | interrupted (i : Interruption)
  | other (text : String)
deriving DecidableEq, Repr

namespace Cause

def message : Cause → String
  | kind k => k.message
  | status s => s.message
  | remote r => r.message
  | interrupted i => i.message
  | other text => text

/-- The base that the failures of a kind have in common. -/
def base : Cause → Option String
  | kind k => some k.base
  | _ => none

end Cause

/-- One level of wrapping: an operation and a code, each optional. -/
structure Layer where
  op : Option String := none
  code : Option Code := none
deriving DecidableEq, Repr, Inhabited

structure Failure where
  layer : Layer
  inner : List Layer
  root : Cause
deriving DecidableEq, Repr

namespace Failure

def layers (f : Failure) : List Layer := f.layer :: f.inner

/-- The names of the operations, outermost first; empty names are left out. -/
def ops (f : Failure) : List String :=
  (f.layers.filterMap (·.op)).filter (· != "")

def explicitCode (f : Failure) : Option Code :=
  f.layers.findSome? (·.code)

/-- The outermost code that is set, or `unknown`. -/
def code (f : Failure) : Code :=
  f.explicitCode.getD .unknown

/-- The code that callers see: an interruption has its own unless one is set. -/
def canonicalCode (f : Failure) : Code :=
  match f.explicitCode, f.root with
  | some c, _ => c
  | none, .interrupted i => i.code
  | none, _ => .unknown

def description (f : Failure) : String := f.root.message

/-- The base of a predefined kind at the root. -/
def base (f : Failure) : Option String := f.root.base

def display (f : Failure) : String :=
  let ops := f.ops
  let start := if ops.isEmpty then "" else "op = " ++ " > ".intercalate ops ++ ", "
  start ++ "code = " ++ f.code.token ++ ", desc = " ++ f.description

/-! ## What lies beneath -/

/-- A failure with each of its inner layers as the outermost one, in order. -/
def innerFailures (root : Cause) : List Layer → List Failure
  | [] => []
  | layer :: rest => ⟨layer, rest, root⟩ :: innerFailures root rest

/-- Something that lies beneath a failure: one without the outermost layers, the root cause, or the
base of the root cause. -/
inductive Source
  | failure (f : Failure)
  | cause (c : Cause)
  | base (text : String)
deriving DecidableEq, Repr

def Source.text : Source → String
  | failure f => f.display
  | cause c => c.message
  | base text => text

/-- Everything beneath a failure, from the outside in. -/
def sources (f : Failure) : List Source :=
  (innerFailures f.root f.inner).map .failure ++ .cause f.root :: (f.base.toList.map .base)

/-! ## Wrapping -/

def ofCause (root : Cause) (layer : Layer := {}) : Failure := ⟨layer, [], root⟩

def wrap (f : Failure) (layer : Layer) : Failure := ⟨layer, f.layers, f.root⟩

/-- A failure under one more layer that names an operation. -/
def under (f : Failure) (op : String) : Failure := f.wrap ⟨some op, none⟩

/-- A failure of a kind, with the code that goes with it. -/
def ofKind (k : Kind) : Failure := ofCause (.kind k) ⟨none, some k.code⟩

/-- A failure told by an RPC peer, with the code of its status. -/
def ofStatus (s : RpcStatus) : Failure := ofCause (.status s) ⟨none, some s.code⟩

end Failure

/-! ## What can be wrapped -/

/-- Something to wrap: a bare cause or a failure with layers of its own. -/
inductive Subject
  | cause (c : Cause)
  | failure (f : Failure)
deriving DecidableEq, Repr

def Subject.wrap (layer : Layer) : Subject → Failure
  | cause c => .ofCause c layer
  | failure f => f.wrap layer

/-- Parts of a failure, given in any order. -/
structure Draft where
  op : Option String := none
  code : Option Code := none
  subject : Option Subject := none
deriving DecidableEq, Repr, Inhabited

inductive Part
  | op (name : String)
  | code (c : Code)
  | subject (s : Subject)
deriving DecidableEq, Repr

namespace Draft

/-- A part replaces an earlier one of the same sort. -/
def set (d : Draft) : Part → Draft
  | .op name => { d with op := some name }
  | .code c => { d with code := some c }
  | .subject s => { d with subject := some s }

/-- The failure made of the parts; without a subject there is nothing to report. -/
def build (d : Draft) : Option Failure :=
  d.subject.map (·.wrap ⟨d.op, d.code⟩)

end Draft

/-- Wraps the failing side of a result, once for each layer. -/
def wrapError {α : Type} (layers : List Layer) : Except Subject α → Except Subject α
  | .ok a => .ok a
  | .error s => .error (layers.foldl (fun s layer => .failure (s.wrap layer)) s)

end Chassis
