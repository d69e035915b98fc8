/-
**JSON values.**

Main definitions:

* `Value` — values; the members of an object stand by ascending key, and each key once;
* `Value.object` and `Value.ofMembers` — an object as it is and as it is built from members in any
  order, the last member of a key counting.
-/

import Shaderworks.Data.NameMap
import Shaderworks.Json.Number

set_option autoImplicit false

namespace Shaderworks.Json

/-- A JSON value. -/
inductive Value where
  /-- No value. -/
  | null
  /-- A truth value. -/
  | boolean (value : Bool)
  /-- A number. -/
  | number (value : Number)
  /-- A string. -/
  | text (value : String)
  /-- An array. -/
  | array (items : List Value)
  /-- An object, its members by ascending key. -/
  | object (members : List (String × Value))
  deriving BEq

/-- The object with these members, the last one of a key counting. -/
def Value.ofMembers (members : List (String × Value)) : Value :=
  .object (NameMap.ofList members).entries

end Shaderworks.Json
