import Spork.JsonFile

/-!
# Fixture files

`core/providers/file`: messages and their attachments from one JSON file.  Nothing checks what
stands in a field, so a loaded field is any JSON value.
-/

set_option autoImplicit false

namespace Spork

open JsonReader (Value)
open Loading

/-! ## Messages -/

end Spork
