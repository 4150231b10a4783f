import Chassis.Config.Validation
import Chassis.Text.Utf8

/-!
# Loading settings

Settings come from the text of a file, or from nothing at all; a profile from outside takes the
place of the one in the file. What is loaded has no problems.
-/

set_option autoImplicit false

namespace Chassis

inductive LoadError
  | unreadable (reason : String)
  | malformed
  | mistyped (message : String)
  | invalid (problems : List Problem)
deriving DecidableEq, Repr

namespace LoadError

/-- The error in words, where the words are fixed. -/
def message : LoadError → Option String
  | unreadable reason => some ("IO error: " ++ reason)
  | malformed => none
  | mistyped message => some message
  | invalid problems =>
    some ("Validation failed: " ++ ", ".intercalate (problems.map Problem.message))

def missingFile : LoadError := .unreadable "No such file or directory (os error 2)"

end LoadError

namespace Config

/-- The settings with a profile from outside, unless that is empty. -/
def withProfile (c : Config) (profile : Option String) : Config :=
  match profile with
  | none => c
  | some p => if p = "" then c else { c with app := { c.app with profile := p } }

def parse (content : String) (profile : Option String := none) : Except LoadError Config :=
  match Toml.Entries.ofText? content with
  | none => .error .malformed
  | some entries =>
    match ofEntries entries with
    | .error message => .error (.mistyped message)
    | .ok c =>
      let c := c.withProfile profile
      if c.problems.isEmpty then .ok c else .error (.invalid c.problems)

/-- The settings in a file; `none` stands for a file that does not exist. -/
def load (content : Option (List UInt8)) (profile : Option String := none) :
    Except LoadError Config :=
  match content with
  | none => .error .missingFile
  | some bytes =>
    match Text.Utf8.decode? bytes with
    | none => .error (.unreadable "stream did not contain valid UTF-8")
    | some s => parse s profile

end Config

end Chassis
