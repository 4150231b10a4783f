import Chassis.Failure
import Chassis.Text.Blank

/-!
# The user directory

Users by number. A new user needs a name with a visible character and an address of its own with an
`@`; the k-th user that is accepted gets the number k. A user who is refused leaves no trace.
-/

set_option autoImplicit false

namespace Chassis

structure User where
  id : String
  name : String
  email : String
deriving DecidableEq, Repr, Inhabited

structure NewUser where
  name : String := ""
  email : String := ""
deriving DecidableEq, Repr, Inhabited

namespace NewUser

def violations (u : NewUser) : List FieldViolation :=
  (if Text.isBlank u.name then [⟨"name", "required"⟩] else []) ++
    (if u.email.toList.contains '@' then [] else [⟨"email", "must be an email address"⟩])

end NewUser

/-- The users that were accepted, the latest first, and how many there are. -/
structure Directory where
  users : List User := []
  created : Nat := 0
deriving DecidableEq, Repr, Inhabited

namespace Directory

def find? (d : Directory) (id : String) : Option User :=
  d.users.find? (·.id == id)

/-- The user with a number, or a failure that names it. -/
def get (d : Directory) (id : String) : Except Failure User :=
  match d.find? id with
  | some u => .ok u
  | none => .error (.ofCause (.kind (.notFound "user" id)) ⟨some "users.get", some .notFound⟩)

/-- The operation under which users are refused. -/
def createOp : String := "users.create"

/-- Creates a user: the user and the directory with it, or a failure. -/
def create (d : Directory) (u : NewUser) : Except Failure (User × Directory) :=
  match u.violations with
  | v :: vs =>
    .error (Failure.ofCause (.kind (.badRequest (v :: vs))) ⟨some createOp, some .invalidArgument⟩)
  | [] =>
    if d.users.any (·.email == u.email) then
      .error (Failure.ofCause (.other s!"email {u.email} is taken")
        ⟨some createOp, some .alreadyExists⟩)
    else
      let user : User := ⟨toString ((d.created + 1) % 0x10000000000000000), u.name, u.email⟩
      .ok (user, ⟨user :: d.users, (d.created + 1) % 0x10000000000000000⟩)

end Directory

end Chassis
