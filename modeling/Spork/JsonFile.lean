import Spork.JsonReader
import Spork.Loading
import Spork.Models
import Spork.TextFile

/-!
# JSON files

What the loaders of JSON files share: the bytes of a file are decoded and parsed, and the values are
taken apart as Python takes them apart.  A `str` is a list of code points.
-/

set_option autoImplicit false

namespace Spork

open JsonReader (Value member)
open Loading

/-- A `str`. -/
abbrev PyText := List Nat

/-- What a loader with errors `ε` comes to. -/
abbrev Loaded (ε α : Type) := Except (Failure ε ExnClass) α

variable {ε : Type}

/-- What a value is iterated over as: the items of a list, the keys of a `dict`, the characters of a
`str`. -/
def elements : Value → Option (List Value)
  | .array items => some items
  | .object members => some ((members.map Prod.fst).eraseDups.map .string)
  | .string points => some (points.map fun point => .string [point])
  | .null | .bool _ | .number _ => none

/-- `entry.get(field, default)` -/
def getField (entry : List (PyText × Value)) (field : String) (default : Value) : Value :=
  (member entry field).getD default

end Spork
