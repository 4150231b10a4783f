import Chassis.Toml.Value

/-!
# Settings as a document

A settings file is a sequence of statements: headers that open a table, and keys with values. A
`Node` is a value that still knows how it was written, because that decides what may be added to it
later:

* a table opened by its own header, or written in braces, is complete and takes no keys from
  outside;
* a table that only came up on the way to another one (`[a.b]` makes `a`) may still be opened;
* a table made by dotted keys (`a.b = 1` makes `a`) takes further dotted keys in the same place.

Opening a table that came up on the way moves it behind its siblings; this order decides which of
several faults is told first.
-/

set_option autoImplicit false

namespace Chassis.Toml

inductive Origin
  | header
  | implied
  | dotted
  | braces
deriving DecidableEq, Repr

/-- A value of a document. `tables` are the tables of one name opened by double brackets. -/
inductive Node
  | scalar (s : Scalar)
  | array (items : List Node)
  | tables (items : List Node)
  | table (origin : Origin) (entries : List (String × Node))
deriving Repr, Inhabited

/-- The keys and values of a table, in the order of the document. -/
abbrev Entries := List (String × Node)

def Entries.get? (es : Entries) (key : String) : Option Node :=
  (es.find? (·.1 == key)).map (·.2)

/-- Another value under a key that is there. -/
def Entries.replace (es : Entries) (key : String) (node : Node) : Entries :=
  es.map fun e => if e.1 = key then (key, node) else e

def Entries.remove (es : Entries) (key : String) : Entries :=
  es.filter (·.1 != key)

/-! ## Statements -/

/-- One statement of a document. A path is the names before the last one. -/
inductive Statement
  | openTable (path : List String) (key : String)
  | openItem (path : List String) (key : String)
  | assign (path : List String) (key : String) (value : Node)
deriving Repr

/-- Changes the table at a path and makes the tables on the way that are missing. `dotted` tells
that the path is part of a dotted key. The change gives a result beside the new table. -/
def changeAt {α : Type} (dotted : Bool) (change : Origin → Entries → Option (α × Entries)) :
    List String → Origin → Entries → Option (α × Entries)
  | [], origin, es => change origin es
  | key :: path, _, es =>
    match es.get? key with
    | none => do
      let origin := if dotted then Origin.dotted else .implied
      let (a, sub) ← changeAt dotted change path origin []
      some (a, es ++ [(key, .table origin sub)])
    | some (.table origin sub) => do
      if origin = .braces ∨ (dotted = true ∧ origin = .header) then none
      else
        let (a, sub) ← changeAt dotted change path origin sub
        some (a, es.replace key (.table origin sub))
    | some (.tables items) =>
      match items.getLast? with
      | some (.table origin sub) => do
        let (a, sub) ← changeAt dotted change path origin sub
        some (a, es.replace key (.tables (items.dropLast ++ [.table origin sub])))
      | _ => none
    | some _ => none

/-- Puts a value under a new key of a table. A key without dots belongs to a table that was opened,
one with dots to a table that dotted keys made. -/
def assignKey (dotted : Bool) (key : String) (value : Node) (origin : Origin) (es : Entries) :
    Option (Unit × Entries) :=
  if (origin = .dotted) ≠ (dotted = true) then none
  else if (es.get? key).isSome then none
  else some ((), es ++ [(key, value)])

/-- Puts a value under a dotted key of an open table. -/
def assign (es : Entries) (path : List String) (key : String) (value : Node) : Option Entries :=
  (changeAt true (assignKey (!path.isEmpty) key value) path .header es).map (·.2)

/-- The keys and values of a table in braces. -/
def bracesTable (pairs : List ((List String × String) × Node)) : Option Node := do
  let es ← pairs.foldlM (fun es p => assign es p.1.1 p.1.2 p.2) []
  some (.table .braces es)

/-! ## Building -/

/-- The table that is open while statements are read. -/
structure Open where
  path : List String
  key : String
  isItem : Bool
  entries : Entries
deriving Repr

/-- A document that is being built: the tables that are complete, and the one that is open; none is
open before the first header. -/
structure Draft where
  root : Entries := []
  current : Option Open := none
deriving Repr, Inhabited

/-- Takes a table out of its parent so that it can be opened: nothing is there, or a table that only
came up on the way. -/
def takeImplied (key : String) (_ : Origin) (es : Entries) : Option (Entries × Entries) :=
  match es.get? key with
  | none => some ([], es)
  | some (.table .implied sub) => some (sub, es.remove key)
  | some _ => none

/-- A list of tables can be opened under a key. -/
def reserveItems (key : String) (_ : Origin) (es : Entries) : Option (Unit × Entries) :=
  match es.get? key with
  | none => some ((), es ++ [(key, .tables [])])
  | some (.tables _) => some ((), es)
  | some _ => none

/-- Adds a complete table to a list of tables. -/
def pushItem (key : String) (item : Node) (_ : Origin) (es : Entries) :
    Option (Unit × Entries) :=
  match es.get? key with
  | some (.tables items) => some ((), es.replace key (.tables (items ++ [item])))
  | _ => none

/-- Adds a complete table behind its siblings. -/
def pushTable (key : String) (entries : Entries) (_ : Origin) (es : Entries) :
    Option (Unit × Entries) :=
  if (es.get? key).isSome then none else some ((), es ++ [(key, .table .header entries)])

namespace Draft

def close (d : Draft) : Option Entries :=
  match d.current with
  | none => some d.root
  | some o =>
    let change :=
      if o.isItem then pushItem o.key (.table .header o.entries) else pushTable o.key o.entries
    (changeAt false change o.path .header d.root).map (·.2)

def add (d : Draft) : Statement → Option Draft
  | .openTable path key => do
    let root ← d.close
    let (entries, root) ← changeAt false (takeImplied key) path .header root
    some ⟨root, some ⟨path, key, false, entries⟩⟩
  | .openItem path key => do
    let root ← d.close
    let (_, root) ← changeAt false (reserveItems key) path .header root
    some ⟨root, some ⟨path, key, true, []⟩⟩
  | .assign path key value =>
    match d.current with
    | none => do some { d with root := ← Toml.assign d.root path key value }
    | some o => do
      some { d with current := some { o with entries := ← Toml.assign o.entries path key value } }

end Draft

/-- The document that statements make up, if they agree with each other. -/
def Entries.ofStatements (statements : List Statement) : Option Entries := do
  let d ← statements.foldlM Draft.add {}
  d.close

/-! ## Plain values -/

mutual

def Node.toValue : Node → Value
  | .scalar s => .scalar s
  | .array items => .array (itemsToValues items)
  | .tables items => .array (itemsToValues items)
  | .table _ entries => .table (entriesToSettings entries)

def itemsToValues : List Node → List Value
  | [] => []
  | item :: rest => item.toValue :: itemsToValues rest

/-- The settings of a table, in ascending order of the keys. -/
def entriesToSettings : List (String × Node) → Settings
  | [] => []
  | (key, node) :: rest => insertSorted key node.toValue (entriesToSettings rest)

end

end Chassis.Toml
