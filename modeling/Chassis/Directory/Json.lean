import Chassis.Directory
import Chassis.Json.Reader
import Chassis.Json.Writer

/-!
# Users as JSON

A user has all of its fields; of a new user a missing field is empty.
-/

set_option autoImplicit false

namespace Chassis

open Json

def User.layout : Layout User where
  shape := .record "User" (.cons "id" .required .text (.cons "name" .required .text
    (.cons "email" .required .text .nil)))
  toValue u := (u.id, u.name, u.email, ())
  ofValue v := ⟨v.1, v.2.1, v.2.2.1⟩
  ofValue_toValue _ := rfl

def NewUser.layout : Layout NewUser where
  shape := .record "NewUser" (.cons "name" .defaulted .text (.cons "email" .defaulted .text .nil))
  toValue u := (u.name, u.email, ())
  ofValue v := ⟨v.1, v.2.1⟩
  ofValue_toValue _ := rfl

end Chassis
