import Spork.Toml.Tokens

/-!
# TOML: values and documents

The rest of the parser: values, which may be nested, and the statements of a document.

A document is built up in a table (`insertAt`) with a note of what may no longer be changed
(`Flags`).  A key counts as *explicit* once it has been declared with `[key]` or `[[key]]`, or
opened by a dotted key of an earlier section, and as *frozen*, with everything below it, if its
value was written inline.

How many calls an array or an inline table takes depends on what stands in it, so what the
interpreter's stack has room for is asked at each bracket (`Room`).
-/

set_option autoImplicit false

namespace Toml

/-- The parts of a key, from the root of the document. -/
abbrev Key : Type := List String

/-- A value.  Numbers with a fraction or an exponent, dates and times are kept as written. -/
inductive Value where
  | string (s : String)
  | boolean (b : Bool)
  | integer (n : Int)
  | float (text : String)
  | datetime (text : String)
  | array (vs : List Value)
  | table (kvs : List (String × Value))

/-- A table: its keys in the order in which they were first written, each with its value. -/
abbrev Table : Type := List (String × Value)

/-- A value is a table. -/
def Value.isTable : Value → Bool
  | .table _ => true
  | _ => false

/-- The value at the end of a path of keys. -/
def Value.at (v : Value) : Key → Option Value
  | [] => some v
  | key :: keys =>
    match v with
    | .table t => (t.lookup key).bind fun w => Value.at w keys
    | _ => none

/-! ## Tables -/

/-- Give a key another value. -/
def setKey (k : String) (v : Value) (t : Table) : Table :=
  t.map fun p => if p.1 = k then (k, v) else p

/-- Change the table under a path, creating the tables on the way that are not there.  With `lists`,
a path goes through an array into its last table. -/
def modifyAt (lists : Bool) (f : Table → Result Table) : Key → Table → Result Table
  | [], t => f t
  | k :: ks, t =>
    match t.lookup k with
    | none => do
      let nest ← modifyAt lists f ks []
      .ok (t ++ [(k, .table nest)])
    | some (.table nest) => do
      let nest ← modifyAt lists f ks nest
      .ok (setKey k (.table nest) t)
    | some (.array vs) =>
      if lists then
        match vs.getLast? with
        | some (.table nest) => do
          let nest ← modifyAt lists f ks nest
          .ok (setKey k (.array (vs.dropLast ++ [.table nest])) t)
        | _ => .error .overwrittenValue
      else .error .overwrittenValue
    | some _ => .error .overwrittenValue

/-- Add a key that must not be there yet. -/
def addKey (taken : Error) (k : String) (v : Value) (t : Table) : Result Table :=
  if (t.lookup k).isSome then .error taken else .ok (t ++ [(k, v)])

/-- Add an empty table to the array under a key. -/
def appendNest (k : String) (t : Table) : Result Table :=
  match t.lookup k with
  | none => .ok (t ++ [(k, .array [.table []])])
  | some (.array vs) => .ok (setKey k (.array (vs ++ [.table []])) t)
  | some _ => .error .overwrittenValue

/-- What may no longer be changed. -/
structure Flags where
  explicit : List Key := []
  frozen : List Key := []
  /-- Keys that become explicit with the next section. -/
  pending : List Key := []

/-- A table with this key has been declared. -/
def Flags.isExplicit (flags : Flags) (key : Key) : Bool := flags.explicit.contains key

/-- The key is inside a value that was written inline. -/
def Flags.isFrozen (flags : Flags) (key : Key) : Bool := flags.frozen.any fun k => k.isPrefixOf key

/-- Forget everything about a key and what is below it. -/
def Flags.unsetAll (flags : Flags) (key : Key) : Flags :=
  { flags with
    explicit := flags.explicit.filter fun k => !key.isPrefixOf k
    frozen := flags.frozen.filter fun k => !key.isPrefixOf k }

/-- The next section begins. -/
def Flags.finalizePending (flags : Flags) : Flags :=
  { flags with explicit := flags.pending ++ flags.explicit, pending := [] }

/-- Whether a value is written inline. -/
def Value.isNest : Value → Bool
  | .array _ | .table _ => true
  | _ => false

/-! ## Values -/

/-- The characters between two points of a document. -/
def textBetween (cs rest : List Char) : String := String.ofList (cs.take (cs.length - rest.length))

/-- `inf` and `nan`, with or without a sign. -/
def matchSpecialFloat (cs : List Char) : Option (String × List Char) :=
  let (sign, rest) := takeSign cs
  if ['i', 'n', 'f'].isPrefixOf rest then
    some (String.ofList (sign ++ ['i', 'n', 'f']), rest.drop 3)
  else if ['n', 'a', 'n'].isPrefixOf rest then
    some (String.ofList (sign ++ ['n', 'a', 'n']), rest.drop 3)
  else none

/-- A value that starts with none of the characters of the others. -/
def parseScalar (cs : List Char) : Result (Value × List Char) :=
  match matchDatetime cs with
  | some (true, rest) => .ok (.datetime (textBetween cs rest), rest)
  | some (false, _) => .error .invalidDate
  | none =>
    match matchTime cs with
    | some rest => .ok (.datetime (textBetween cs rest), rest)
    | none =>
      match matchNumber cs with
      | some (.integer n, rest) => .ok (.integer n, rest)
      | some (.tooLong, _) => .error .tooManyDigits
      | some (.float text, rest) => .ok (.float text, rest)
      | none =>
        match matchSpecialFloat cs with
        | some (text, rest) => .ok (.float text, rest)
        | none => .error .invalidValue

/-- A string, behind its first quote. -/
def parseString (quote : Char) (cs : List Char) : Result (Value × List Char) := do
  let (s, rest) ←
    if [quote, quote].isPrefixOf cs then parseMultilineStr quote (cs.drop 2)
    else if quote = '"' then parseOneLineBasicStr cs
    else parseLiteralStr cs
  .ok (.string s, rest)

/-- A key, the blanks behind it and an equals sign, and the blanks behind that. -/
def parseKeyEquals (cs : List Char) : Result (Key × List Char) := do
  let (key, cs) ← parseKey cs
  match cs with
  | '=' :: cs => .ok (key, cs.dropWhile isBlank)
  | _ => .error .expectedEquals

/-- Add a pair to an inline table. -/
def addInline (flags : Flags) (key : Key) (v : Value) (t : Table) : Result Table :=
  if flags.isFrozen key then .error .immutableNamespace
  else modifyAt false (addKey .duplicateInlineKey (key.getLastD "") v) key.dropLast t

/-- Whether the interpreter's stack has room for an array or an inline table: the brackets that are
open, from its own one outwards, and what stands behind it. -/
abbrev Room : Type := List Char → List Char → Bool

/-- A stack with room enough. -/
def Room.enough : Room := fun _ _ => true

/-- One bracket more. -/
def Room.enter (room : Room) (brackets cs : List Char) : Result Unit :=
  if room brackets cs then .ok () else .error .recursion

@[simp]
theorem Room.enter_enough (brackets cs : List Char) : Room.enough.enter brackets cs = .ok () := rfl

section Values

variable (room : Room)

mutual

/-- A value. -/
def parseValue : Nat → List Char → List Char → Result (Value × List Char)
  | 0, _, _ => .error .outOfFuel
  | _ + 1, _, [] => .error .invalidValue
  | n + 1, brackets, c :: cs =>
    if c = '"' ∨ c = '\'' then parseString c cs
    else if c = 't' ∧ ['r', 'u', 'e'].isPrefixOf cs then .ok (.boolean true, cs.drop 3)
    else if c = 'f' ∧ ['a', 'l', 's', 'e'].isPrefixOf cs then .ok (.boolean false, cs.drop 4)
    else if c = '[' then do
      room.enter ('[' :: brackets) cs
      let cs ← skipCommentsAndSpaces (cs.length + 1) cs
      match cs with
      | ']' :: cs => .ok (.array [], cs)
      | cs => do
        let (vs, rest) ← parseItems n ('[' :: brackets) cs
        .ok (.array vs, rest)
    else if c = '{' then do
      room.enter ('{' :: brackets) cs
      match cs.dropWhile isBlank with
      | '}' :: cs => .ok (.table [], cs)
      | cs => do
        let (t, rest) ← parseInlinePairs n ('{' :: brackets) {} [] cs
        .ok (.table t, rest)
    else parseScalar (c :: cs)

/-- The items of an array, and its closing bracket. -/
def parseItems : Nat → List Char → List Char → Result (List Value × List Char)
  | 0, _, _ => .error .outOfFuel
  | n + 1, brackets, cs => do
    let (v, cs) ← parseValue n brackets cs
    let cs ← skipCommentsAndSpaces (cs.length + 1) cs
    match cs with
    | ']' :: cs => .ok ([v], cs)
    | ',' :: cs => do
      let cs ← skipCommentsAndSpaces (cs.length + 1) cs
      match cs with
      | ']' :: cs => .ok ([v], cs)
      | cs => do
        let (vs, rest) ← parseItems n brackets cs
        .ok (v :: vs, rest)
    | _ => .error .unclosedArray

/-- The pairs of an inline table, and its closing brace. -/
def parseInlinePairs :
    Nat → List Char → Flags → Table → List Char → Result (Table × List Char)
  | 0, _, _, _, _ => .error .outOfFuel
  | n + 1, brackets, flags, t, cs => do
    let (key, cs) ← parseKeyEquals cs
    let (v, cs) ← parseValue n brackets cs
    let t ← addInline flags key v t
    match cs.dropWhile isBlank with
    | '}' :: cs => .ok (t, cs)
    | ',' :: cs =>
      let flags := if v.isNest then { flags with frozen := key :: flags.frozen } else flags
      parseInlinePairs n brackets flags t (cs.dropWhile isBlank)
    | _ => .error .unclosedInlineTable

end

end Values

/-! ## Statements -/

/-- What has been read so far, and the table that the next pair goes to. -/
structure Output where
  data : Table := []
  flags : Flags := {}
  header : Key := []

/-- `[key]`, behind its bracket. -/
def createDict (out : Output) (cs : List Char) : Result (Output × List Char) := do
  let (key, cs) ← parseKey (cs.dropWhile isBlank)
  if out.flags.isExplicit key ∨ out.flags.isFrozen key then .error .declaredTwice
  else do
    let data ← modifyAt true .ok key out.data
    match cs with
    | ']' :: cs =>
      .ok (⟨data, { out.flags with explicit := key :: out.flags.explicit }, key⟩, cs)
    | _ => .error .expectedBracket

/-- `[[key]]`, behind its brackets. -/
def createList (out : Output) (cs : List Char) : Result (Output × List Char) := do
  let (key, cs) ← parseKey (cs.dropWhile isBlank)
  if out.flags.isFrozen key then .error .immutableNamespace
  else do
    let flags := out.flags.unsetAll key
    let data ← modifyAt true (appendNest (key.getLastD "")) key.dropLast out.data
    match cs with
    | ']' :: ']' :: cs => .ok (⟨data, { flags with explicit := key :: flags.explicit }, key⟩, cs)
    | _ => .error .expectedBracket

/-- The tables that a dotted key opens, from the outermost one on. -/
def openedBy (header key : Key) : List Key :=
  (List.range (key.length - 1)).map fun i => header ++ key.take (i + 1)

/-- `key = value`. -/
def keyValue (room : Room) (out : Output) (cs : List Char) : Result (Output × List Char) := do
  let (key, cs) ← parseKeyEquals cs
  let (v, cs) ← parseValue room (cs.length + 1) [] cs
  let opened := openedBy out.header key
  let parent := out.header ++ key.dropLast
  if opened.any out.flags.isExplicit then .error .redefinedNamespace
  else if out.flags.isFrozen parent then .error .immutableNamespace
  else do
    let data ← modifyAt true (addKey .overwrittenValue (key.getLastD "") v) parent out.data
    let frozen := if v.isNest then (out.header ++ key) :: out.flags.frozen else out.flags.frozen
    .ok (⟨data, { out.flags with frozen := frozen, pending := opened ++ out.flags.pending },
      out.header⟩, cs)

/-- What a line starts with, up to a comment or the end of the line. -/
def statement (room : Room) (out : Output) : List Char → Result (Output × List Char)
  | [] => .ok (out, [])
  | c :: cs =>
    if isBareKeyChar c ∨ c = '"' ∨ c = '\'' then do
      let (out, cs) ← keyValue room out (c :: cs)
      .ok (out, cs.dropWhile isBlank)
    else if c = '[' then do
      let out := { out with flags := out.flags.finalizePending }
      let (out, cs) ←
        match cs with
        | '[' :: cs => createList out cs
        | cs => createDict out cs
      .ok (out, cs.dropWhile isBlank)
    else if c = '#' then .ok (out, c :: cs)
    else .error .invalidStatement

/-- The lines of a document. -/
def statements (room : Room) : Nat → Output → List Char → Result Table
  | 0, _, _ => .error .outOfFuel
  | n + 1, out, cs =>
    match cs.dropWhile isBlank with
    | [] => .ok out.data
    | '\n' :: cs => statements room n out cs
    | cs => do
      let (out, cs) ← statement room out cs
      let cs ← skipComment cs
      match cs with
      | [] => .ok out.data
      | '\n' :: cs => statements room n out cs
      | _ => .error .expectedNewline

/-- Line ends of two characters become line ends of one. -/
def replaceCrLf : List Char → List Char
  | '\r' :: '\n' :: cs => '\n' :: replaceCrLf cs
  | c :: cs => c :: replaceCrLf cs
  | [] => []

/-- **A document.** -/
def read (room : Room) (s : String) : Result Table :=
  let cs := replaceCrLf s.toList
  statements room (cs.length + 1) {} cs

/-- A document, on a stack with room enough. -/
def loads (s : String) : Result Table := read .enough s

end Toml
