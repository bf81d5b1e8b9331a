import Spork.Models
import Spork.Toml.Document

/-!
# Validating a rule

`core/rules/schema.py`, as pydantic applies it to a parsed TOML value: a key that is not a field is
an error, a text is a text and nothing else, and a boolean may also be written as a number or as one
of a few words.  Why a value is rejected is not kept.
-/

set_option autoImplicit false

namespace Spork

open Toml (Value Table)

/-! ## Fields -/

/-- The words that stand for `False`. -/
def falseWords : List String := ["0", "off", "f", "false", "n", "no"]

/-- The words that stand for `True`. -/
def trueWords : List String := ["1", "on", "t", "true", "y", "yes"]

/-- A boolean as a word, in any case. -/
def strAsBool (s : String) : Option Bool :=
  let word := String.ofList (s.toList.map Char.toLower)
  if word ∈ falseWords then some false
  else if word ∈ trueWords then some true
  else none

/-- A boolean as an integer. -/
def intAsBool (n : Int) : Option Bool :=
  if n = 0 then some false else if n = 1 then some true else none

/-- The number that the text of a finite float writes down, before it is rounded. -/
def floatValue (text : String) : Option ℚ :=
  let (sign, cs) := Toml.takeSign text.toList
  let ds := cs.takeWhile Toml.isDigit
  let (fraction, cs) :=
    match cs.dropWhile Toml.isDigit with
    | '.' :: cs => (cs.takeWhile Toml.isDigit, cs.dropWhile Toml.isDigit)
    | cs => ([], cs)
  let exponent : Int :=
    match cs with
    | 'e' :: cs =>
      let (sign, ds) := Toml.takeSign cs
      if sign = ['-'] then -(Toml.ofDigits 10 ds : Int) else Toml.ofDigits 10 ds
    | _ => 0
  if ds = [] then none
  else
    let q := (Toml.ofDigits 10 (ds ++ fraction) : ℚ) * (10 : ℚ) ^ (exponent - fraction.length)
    some (if sign = ['-'] then -q else q)

/-- A boolean as a float: what rounds to `0.0` or to `1.0`. -/
def floatAsBool (text : String) : Option Bool :=
  match floatValue text with
  | none => none
  | some q =>
    if |q| ≤ 1 / 2 ^ 1075 then some false
    else if 1 - 1 / 2 ^ 54 ≤ q ∧ q ≤ 1 + 1 / 2 ^ 53 then some true
    else none

/-- `bool`. -/
def validateBool : Value → Option Bool
  | .boolean b => some b
  | .string s => strAsBool s
  | .integer n => intAsBool n
  | .float text => floatAsBool text
  | _ => none

/-- `str`. -/
def validateStr : Value → Option String
  | .string s => some s
  | _ => none

/-- `list[str]`. -/
def validateStrs : Value → Option (List String)
  | .array vs => vs.mapM validateStr
  | _ => none

/-- `Action.type`. -/
def validateActionType (v : Value) : Option ActionType := do
  let s ← validateStr v
  [ActionType.move, .tag, .escalate, .ignore, .archiveReceipt].find? fun type => type.value = s

/-- A field without a default. -/
def required {α : Type} (validate : Value → Option α) (t : Table) (key : String) : Option α :=
  (t.lookup key).bind validate

/-- A field with a default. -/
def defaulted {α : Type} (validate : Value → Option α) (default : α) (t : Table) (key : String) :
    Option α :=
  match t.lookup key with
  | none => some default
  | some v => validate v

/-- A field that may be `None`, which is its default. -/
def nullable {α : Type} (validate : Value → Option α) : Table → String → Option (Option α) :=
  defaulted (fun v => (validate v).map some) none

/-- `extra="forbid"`. -/
def forbidExtra (fields : List String) (t : Table) : Bool := t.all fun p => decide (p.1 ∈ fields)

/-! ## Models -/

/-- `Condition.model_validate`. -/
def Condition.validate : Value → Option Condition
  | .table t =>
    if forbidExtra ["always", "from_domain_in", "from_in", "local_classifier_category_in"] t then do
      let always ← defaulted validateBool false t "always"
      let fromDomainIn ← nullable validateStrs t "from_domain_in"
      let fromIn ← nullable validateStrs t "from_in"
      let localClassifierCategoryIn ← nullable validateStrs t "local_classifier_category_in"
      some ⟨always, fromDomainIn, fromIn, localClassifierCategoryIn⟩
    else none
  | _ => none

/-- `Action.model_validate`. -/
def Action.validate : Value → Option Action
  | .table t =>
    if forbidExtra ["type", "mailbox", "reason", "alert_immediately"] t then do
      let type ← required validateActionType t "type"
      let mailbox ← nullable validateStr t "mailbox"
      let reason ← nullable validateStr t "reason"
      let alertImmediately ← defaulted validateBool false t "alert_immediately"
      some ⟨type, mailbox, reason, alertImmediately⟩
    else none
  | _ => none

/-- `Rule.model_validate`. -/
def Rule.validate : Value → Option Rule
  | .table t =>
    if forbidExtra ["id", "description", "when", "action", "enabled"] t then do
      let id ← required validateStr t "id"
      let description ← defaulted validateStr "" t "description"
      let when ← required Condition.validate t "when"
      let action ← required Action.validate t "action"
      let enabled ← defaulted validateBool true t "enabled"
      some ⟨id, description, when, action, enabled⟩
    else none
  | _ => none

end Spork
