import Spork.Unicode
import Mathlib.Data.Rat.Defs
import Mathlib.Algebra.Order.Ring.Rat
import Mathlib.Data.List.Sort

/-!
# The values everything is about

`core/models.py` and `core/rules/schema.py`: a message, an attachment, and the rules a message is
matched against.  Every one of them is a frozen value in the source, so a plain structure is all
there is to say.

The file also fixes how Python values are written down here: `Exn` is a raised exception, known by
its class and its `str()`; `PyFloat` is a `float` as far as comparisons can tell (every finite
float is a rational, and `nan` compares false with everything).
-/

set_option autoImplicit false

namespace Spork

/-! ## Python values -/

/-- The exception classes that some handler or some property tells apart.  `other` is any further
class, under its name; none of those is a subclass of a named one. -/
inductive ExnClass where
  | liteLLMClientError
  | verdictValidationError
  | actionExecutionError
  | missingMetaError
  | unknownBranchError
  | runtimeError
  | valueError
  | overflowError
  | sqliteError
  | pydanticSerializationError
  | receiptArchiveError
  | receiptPdfError
  | other (name : String)
  deriving DecidableEq, Repr

/-- `type(exc).__name__`. -/
def ExnClass.name : ExnClass → String
  | .liteLLMClientError => "LiteLLMClientError"
  | .verdictValidationError => "VerdictValidationError"
  | .actionExecutionError => "ActionExecutionError"
  | .missingMetaError => "MissingMetaError"
  | .unknownBranchError => "UnknownBranchError"
  | .runtimeError => "RuntimeError"
  | .valueError => "ValueError"
  | .overflowError => "OverflowError"
  | .sqliteError => "OperationalError"
  | .pydanticSerializationError => "PydanticSerializationError"
  | .receiptArchiveError => "ReceiptArchiveError"
  | .receiptPdfError => "ReceiptPdfError"
  | .other name => name

/-- A raised exception: its class and its `str()`. -/
structure Exn where
  cls : ExnClass
  message : String
  deriving DecidableEq, Repr

/-- A `float`, as far as comparisons can tell. -/
inductive PyFloat where
  | nan
  | negInf
  | fin (q : ℚ)
  | posInf
  deriving DecidableEq

/-- `a <= b`.  A comparison with `nan` is false. -/
def PyFloat.le : PyFloat → PyFloat → Bool
  | .nan, _ => false
  | _, .nan => false
  | .negInf, _ => true
  | _, .posInf => true
  | .fin a, .fin b => decide (a ≤ b)
  | .fin _, .negInf => false
  | .posInf, .negInf => false
  | .posInf, .fin _ => false

/-- `math.isnan(a)`. -/
def PyFloat.isNan : PyFloat → Bool
  | .nan => true
  | _ => false

theorem PyFloat.le_trans {a b c : PyFloat} (hab : a.le b = true) (hbc : b.le c = true) :
    a.le c = true := by
  cases a <;> cases b <;> cases c <;> simp_all [PyFloat.le]
  exact hab.trans hbc

theorem PyFloat.isNan_of_le {a b : PyFloat} (h : a.le b = true) :
    a.isNan = false ∧ b.isNan = false := by
  cases a <;> cases b <;> simp_all [PyFloat.le, PyFloat.isNan]

/-- `s[:n]`. -/
def pySlice (s : String) (n : Nat) : String := String.ofList (s.toList.take n)

/-- `s.lower()`. -/
def pyLower (s : String) : String := String.ofList (Unicode.lower s.toList)

/-- The last `width` hexadecimal digits of a number. -/
def hexDigits : Nat → Nat → List Char
  | 0, _ => []
  | width + 1, n => hexDigits width (n / 16) ++ [Nat.digitChar (n % 16)]

/-- One character of `repr(s)`, inside quotes `q`. -/
def reprChar (q c : Char) : List Char :=
  if c = q ∨ c = '\\' then ['\\', c]
  else if c = '\n' then ['\\', 'n']
  else if c = '\r' then ['\\', 'r']
  else if c = '\t' then ['\\', 't']
  else if c.toNat < 32 ∨ c.toNat = 127 then '\\' :: 'x' :: hexDigits 2 c.toNat
  else if c.toNat < 127 ∨ Unicode.isPrintable c then [c]
  else if c.toNat < 256 then '\\' :: 'x' :: hexDigits 2 c.toNat
  else if c.toNat < 65536 then '\\' :: 'u' :: hexDigits 4 c.toNat
  else '\\' :: 'U' :: hexDigits 8 c.toNat

/-- `repr(s)`: double quotes only for a text that holds a single quote and no double one. -/
def pyRepr (s : String) : String :=
  let q := if '\'' ∈ s.toList ∧ '"' ∉ s.toList then '"' else '\''
  String.ofList (q :: s.toList.flatMap (reprChar q) ++ [q])

/-- `repr` of an optional text. -/
def pyReprOpt : Option String → String
  | none => "None"
  | some s => pyRepr s

/-- `f"{sorted(xs)}"`. -/
def pyReprSorted (xs : List String) : String :=
  "[" ++ String.intercalate ", " ((xs.insertionSort (· ≤ ·)).map pyRepr) ++ "]"

/-! ## Messages -/

/-- One email, reduced to what triage needs. -/
structure NormalizedMessage where
  messageId : String
  threadId : String
  fromAddress : String
  fromDomain : String
  subject : String
  bodyText : String
  headers : List (String × String) := []
  mailboxIds : List String := []
  deriving DecidableEq, Repr

/-- One email attachment. -/
structure Attachment where
  filename : String
  contentType : String
  data : List UInt8
  deriving DecidableEq, Repr

/-- `message.headers.get(name)`. -/
def NormalizedMessage.header (m : NormalizedMessage) (name : String) : Option String :=
  m.headers.lookup name

/-! ## Rules -/

/-- A rule's `when` clause. -/
structure Condition where
  always : Bool := false
  fromDomainIn : Option (List String) := none
  fromIn : Option (List String) := none
  localClassifierCategoryIn : Option (List String) := none
  deriving DecidableEq, Repr

/-- `Action.type`. -/
inductive ActionType where
  | move
  | tag
  | escalate
  | ignore
  | archiveReceipt
  deriving DecidableEq, Repr

/-- The literal an action type is written as. -/
def ActionType.value : ActionType → String
  | .move => "move"
  | .tag => "tag"
  | .escalate => "escalate"
  | .ignore => "ignore"
  | .archiveReceipt => "archive_receipt"

/-- A matched rule's effect. -/
structure Action where
  type : ActionType
  mailbox : Option String := none
  reason : Option String := none
  alertImmediately : Bool := false
  deriving DecidableEq, Repr

/-- `repr(action)`. -/
def Action.repr (a : Action) : String :=
  "Action(type=" ++ pyRepr a.type.value ++ ", mailbox=" ++ pyReprOpt a.mailbox ++ ", reason=" ++
    pyReprOpt a.reason ++ ", alert_immediately=" ++
    (if a.alertImmediately then "True" else "False") ++ ")"

/-- `move` and `tag` name a destination mailbox: `_MAILBOX_REQUIRED_ACTIONS`. -/
def ActionType.needsMailbox : ActionType → Bool
  | .move => true
  | .tag => true
  | _ => false

/-- One condition → action mapping of `rules.toml`. -/
structure Rule where
  id : String
  description : String := ""
  when : Condition
  action : Action
  enabled : Bool := true
  deriving DecidableEq, Repr

/-- Result of running one message through the rules. -/
structure RuleVerdict where
  action : Action
  matchedRuleId : Option String
  deriving DecidableEq, Repr

/-- `ClassificationResult`, as far as a rule condition reads it. -/
structure ClassificationResult where
  category : String
  scores : List (String × ℚ) := []
  deriving DecidableEq

end Spork
