import Spork.Models

/-!
# Writing `rules.toml`

`core/rules/writer.py`: a serializer for the closed schema of rules, by hand.
-/

set_option autoImplicit false

namespace Spork

/-- `value.replace(old, new)` for one character. -/
def replaceChar (old : Char) (new : List Char) (value : String) : String :=
  String.ofList (value.toList.flatMap fun c => if c = old then new else [c])

/-- `_toml_string`. -/
def tomlString (value : String) : String :=
  let escaped := replaceChar '"' ['\\', '"'] (replaceChar '\\' ['\\', '\\'] value)
  "\"" ++ escaped ++ "\""

/-- The values that `when` and `action` hold. -/
inductive PlainValue where
  | boolean (b : Bool)
  | string (s : String)
  | strings (ss : List String)

/-- `_toml_value`. -/
def tomlValue : PlainValue → String
  | .boolean b => if b then "true" else "false"
  | .string s => tomlString s
  | .strings ss => "[" ++ String.intercalate ", " (ss.map tomlString) ++ "]"

/-- `_inline_table`. -/
def inlineTable (fields : List (String × PlainValue)) : String :=
  "\x7b " ++ String.intercalate ", " (fields.map fun f => f.1 ++ " = " ++ tomlValue f.2) ++ " \x7d"

/-- `exclude_none=True`. -/
def excludeNone (fields : List (String × Option PlainValue)) : List (String × PlainValue) :=
  fields.filterMap fun f => f.2.map fun v => (f.1, v)

/-- `when.model_dump(exclude_none=True)`. -/
def Condition.dump (c : Condition) : List (String × PlainValue) :=
  excludeNone
    [("always", some (.boolean c.always)), ("from_domain_in", c.fromDomainIn.map .strings),
      ("from_in", c.fromIn.map .strings),
      ("local_classifier_category_in", c.localClassifierCategoryIn.map .strings)]

/-- `action.model_dump(exclude_none=True)`. -/
def Action.dump (a : Action) : List (String × PlainValue) :=
  excludeNone
    [("type", some (.string a.type.value)), ("mailbox", a.mailbox.map .string),
      ("reason", a.reason.map .string), ("alert_immediately", some (.boolean a.alertImmediately))]

/-- The lines of a rule. -/
def Rule.lines (rule : Rule) : List String :=
  ["[[rule]]", "id = " ++ tomlString rule.id] ++
    (if rule.description = "" then [] else ["description = " ++ tomlString rule.description]) ++
    ["enabled = " ++ tomlValue (.boolean rule.enabled), "when = " ++ inlineTable rule.when.dump,
      "action = " ++ inlineTable rule.action.dump]

/-- `dump_rules`. -/
def dumpRules (rules : List Rule) : String :=
  let blocks := rules.map fun rule => String.intercalate "\n" rule.lines
  if blocks = [] then "" else String.intercalate "\n\n" blocks ++ "\n"

end Spork
