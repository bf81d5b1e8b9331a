import Mathlib.Data.List.Basic

/-!
# TOML: characters, strings, keys, numbers and dates

A TOML 1.0 parser in the manner of Python's `tomllib`, on lists of characters: a function takes what
is left of the document and gives back a value and what is left behind it.  This file has everything
that is not nested.

Numbers and dates are taken apart only as far as is needed to know where they end and whether they
are allowed: a float, a date or a time is kept as it is written.

A loop that takes at least one character a round is given the number of characters as its fuel.
-/

set_option autoImplicit false

namespace Toml

/-- Why a document is rejected, one case for every place that does. -/
inductive Error where
  | invalidStatement
  | expectedNewline
  | illegalCharacter
  | unterminatedString
  | unescapedBackslash
  | invalidHexValue
  | notAScalarValue
  | invalidKey
  | expectedEquals
  | invalidDate
  | invalidValue
  | unclosedArray
  | unclosedInlineTable
  | duplicateInlineKey
  | immutableNamespace
  | declaredTwice
  | redefinedNamespace
  | overwrittenValue
  | expectedBracket
  /-- Not TOML's doing: `int` refuses a text of more than 4300 digits. -/
  | tooManyDigits
  /-- Nor this: a `RecursionError`. -/
  | recursion
  | outOfFuel
  deriving DecidableEq, Repr

/-- What parsing a piece comes to. -/
abbrev Result (α : Type) : Type := Except Error α

/-! ## Characters -/

/-- A control character other than a tab: illegal in comments and in strings. -/
def isIllegal (c : Char) : Bool := (decide (c.toNat < 32) && c != '\t') || c.toNat == 127

/-- The same for strings of several lines. -/
def isIllegalMultiline (c : Char) : Bool := isIllegal c && c != '\n'

/-- A blank. -/
def isBlank (c : Char) : Bool := c == ' ' || c == '\t'

/-- A blank or the end of a line. -/
def isSpace (c : Char) : Bool := isBlank c || c == '\n'

def isDigit (c : Char) : Bool := decide ('0' ≤ c) && decide (c ≤ '9')

def isHexDigit (c : Char) : Bool :=
  isDigit c || (decide ('a' ≤ c) && decide (c ≤ 'f')) || (decide ('A' ≤ c) && decide (c ≤ 'F'))

/-- A character of a bare key. -/
def isBareKeyChar (c : Char) : Bool :=
  (decide ('a' ≤ c) && decide (c ≤ 'z')) || (decide ('A' ≤ c) && decide (c ≤ 'Z')) || isDigit c ||
    c == '-' || c == '_'

/-- The value of a hexadecimal digit. -/
def digitValue (c : Char) : Nat :=
  if isDigit c then c.toNat - '0'.toNat
  else if decide ('a' ≤ c) && decide (c ≤ 'f') then c.toNat - 'a'.toNat + 10
  else c.toNat - 'A'.toNat + 10

/-- The number that some digits of a base write down. -/
def ofDigits (base : Nat) (ds : List Char) : Nat :=
  ds.foldl (fun n c => n * base + digitValue c) 0

/-! ## Comments -/

/-- A comment up to the end of its line, if there is one. -/
def skipComment : List Char → Result (List Char)
  | '#' :: cs =>
    if (cs.takeWhile (· != '\n')).any isIllegal then .error .illegalCharacter
    else .ok (cs.dropWhile (· != '\n'))
  | cs => .ok cs

/-- Spaces and comments, as many as there are. -/
def skipCommentsAndSpaces : Nat → List Char → Result (List Char)
  | 0, _ => .error .outOfFuel
  | n + 1, cs => do
    let cs' ← skipComment (cs.dropWhile isSpace)
    if cs'.length = cs.length then .ok cs' else skipCommentsAndSpaces n cs'

/-! ## Strings -/

/-- What is before a delimiter, and what is behind it. -/
def splitAtDelimiter (delimiter : List Char) : List Char → Option (List Char × List Char)
  | [] => none
  | c :: cs =>
    if delimiter.isPrefixOf (c :: cs) then some ([], (c :: cs).drop delimiter.length)
    else (splitAtDelimiter delimiter cs).map fun p => (c :: p.1, p.2)

/-- The character of an escape of one letter. -/
def escapeReplacement (c : Char) : Option Char :=
  if c = 'b' then some '\x08'
  else if c = 't' then some '\t'
  else if c = 'n' then some '\n'
  else if c = 'f' then some '\x0c'
  else if c = 'r' then some '\r'
  else if c = '"' then some '"'
  else if c = '\\' then some '\\'
  else none

/-- The character of an escape of `len` hexadecimal digits. -/
def parseHexChar (len : Nat) (cs : List Char) : Result (Char × List Char) :=
  let ds := cs.take len
  if ds.length = len ∧ ds.all isHexDigit then
    let n := ofDigits 16 ds
    if n.isValidChar then .ok (Char.ofNat n, cs.drop len) else .error .notAScalarValue
  else .error .invalidHexValue

/-- What is left behind a backslash at the end of a line, which also takes the blanks around it and
the empty lines below. -/
def skipLineEnd (cs : List Char) : Result (List Char) :=
  match cs.dropWhile isBlank with
  | [] => .ok []
  | c :: cs => if c = '\n' then .ok (cs.dropWhile isSpace) else .error .unescapedBackslash

/-- The text of a basic string, from behind its opening quotes to behind its closing ones. -/
def parseBasicStr (multiline : Bool) : Nat → List Char → Result (List Char × List Char)
  | 0, _ => .error .outOfFuel
  | _ + 1, [] => .error .unterminatedString
  | n + 1, c :: cs =>
    if c = '"' then
      if multiline then
        if ['"', '"'].isPrefixOf cs then .ok ([], cs.drop 2)
        else do
          let (text, rest) ← parseBasicStr multiline n cs
          .ok (c :: text, rest)
      else .ok ([], cs)
    else if c = '\\' then
      match cs with
      | [] => .error .unescapedBackslash
      | e :: cs =>
        if multiline ∧ isSpace e then do
          let cs ← skipLineEnd (e :: cs)
          parseBasicStr multiline n cs
        else if e = 'u' ∨ e = 'U' then do
          let (x, cs) ← parseHexChar (if e = 'u' then 4 else 8) cs
          let (text, rest) ← parseBasicStr multiline n cs
          .ok (x :: text, rest)
        else
          match escapeReplacement e with
          | none => .error .unescapedBackslash
          | some x => do
            let (text, rest) ← parseBasicStr multiline n cs
            .ok (x :: text, rest)
    else if (if multiline then isIllegalMultiline c else isIllegal c) then .error .illegalCharacter
    else do
      let (text, rest) ← parseBasicStr multiline n cs
      .ok (c :: text, rest)

/-- A basic string on one line, behind its opening quote. -/
def parseOneLineBasicStr (cs : List Char) : Result (String × List Char) := do
  let (text, rest) ← parseBasicStr false (cs.length + 1) cs
  .ok (String.ofList text, rest)

/-- The text of a literal string, up to its delimiter. -/
def parseLiteralText (illegal : Char → Bool) (delimiter cs : List Char) :
    Result (List Char × List Char) :=
  match splitAtDelimiter delimiter cs with
  | none => .error .unterminatedString
  | some (text, rest) => if text.any illegal then .error .illegalCharacter else .ok (text, rest)

/-- A literal string on one line, behind its opening apostrophe. -/
def parseLiteralStr (cs : List Char) : Result (String × List Char) := do
  let (text, rest) ← parseLiteralText isIllegal ['\''] cs
  .ok (String.ofList text, rest)

/-- A string of several lines, behind its three opening quotes.  Up to two more quotes before the
closing ones belong to the text. -/
def parseMultilineStr (quote : Char) (cs : List Char) : Result (String × List Char) := do
  let cs := if ['\n'].isPrefixOf cs then cs.drop 1 else cs
  let (text, rest) ←
    if quote = '"' then parseBasicStr true (cs.length + 1) cs
    else parseLiteralText isIllegalMultiline [quote, quote, quote] cs
  let extra := (rest.take 2).takeWhile (· == quote)
  .ok (String.ofList (text ++ extra), rest.drop extra.length)

/-! ## Keys -/

/-- One part of a key. -/
def parseKeyPart : List Char → Result (String × List Char)
  | [] => .error .invalidKey
  | c :: cs =>
    if isBareKeyChar c then
      .ok (String.ofList ((c :: cs).takeWhile isBareKeyChar), (c :: cs).dropWhile isBareKeyChar)
    else if c = '\'' then parseLiteralStr cs
    else if c = '"' then parseOneLineBasicStr cs
    else .error .invalidKey

/-- The parts of a key, and the blanks behind it. -/
def parseKeyParts : Nat → List Char → Result (List String × List Char)
  | 0, _ => .error .outOfFuel
  | n + 1, cs => do
    let (part, cs) ← parseKeyPart cs
    match cs.dropWhile isBlank with
    | '.' :: cs => do
      let (parts, rest) ← parseKeyParts n (cs.dropWhile isBlank)
      .ok (part :: parts, rest)
    | rest => .ok ([part], rest)

/-- A key. -/
def parseKey (cs : List Char) : Result (List String × List Char) := parseKeyParts (cs.length + 1) cs

/-! ## Numbers -/

/-- Digits behind the first one, each possibly behind an underscore. -/
def takeDigits (digit : Char → Bool) : List Char → List Char × List Char
  | '_' :: c :: cs =>
    if digit c then
      let (ds, rest) := takeDigits digit cs
      (c :: ds, rest)
    else ([], '_' :: c :: cs)
  | c :: cs =>
    if digit c then
      let (ds, rest) := takeDigits digit cs
      (c :: ds, rest)
    else ([], c :: cs)
  | [] => ([], [])

/-- One or more digits. -/
def matchDigits (digit : Char → Bool) : List Char → Option (List Char × List Char)
  | [] => none
  | c :: cs =>
    if digit c then
      let (ds, rest) := takeDigits digit cs
      some (c :: ds, rest)
    else none

/-- An optional sign. -/
def takeSign : List Char → List Char × List Char
  | '+' :: cs => (['+'], cs)
  | '-' :: cs => (['-'], cs)
  | cs => ([], cs)

/-- The integer part of a number: no superfluous zeros. -/
def matchIntegerPart : List Char → Option (List Char × List Char)
  | '0' :: cs => some (['0'], cs)
  | cs => matchDigits isDigit cs

/-- An optional fraction. -/
def takeFraction (cs : List Char) : List Char × List Char :=
  match cs with
  | '.' :: rest =>
    match matchDigits isDigit rest with
    | some (ds, rest) => ('.' :: ds, rest)
    | none => ([], cs)
  | _ => ([], cs)

/-- An optional exponent. -/
def takeExponent (cs : List Char) : List Char × List Char :=
  match cs with
  | c :: rest =>
    if c = 'e' ∨ c = 'E' then
      let (sign, rest) := takeSign rest
      match matchDigits isDigit rest with
      | some (ds, rest) => ('e' :: sign ++ ds, rest)
      | none => ([], cs)
    else ([], cs)
  | [] => ([], cs)

/-- A number: an integer, a decimal integer of more digits than `int` takes, or the text of a float,
without its underscores. -/
inductive Number where
  | integer (n : Int)
  | tooLong
  | float (text : String)

/-- A number with a base in front. -/
def matchBased : List Char → Option (Number × List Char)
  | '0' :: 'x' :: cs => (matchDigits isHexDigit cs).map fun p => (.integer (ofDigits 16 p.1), p.2)
  | '0' :: 'b' :: cs =>
    (matchDigits (fun c => c == '0' || c == '1') cs).map fun p => (.integer (ofDigits 2 p.1), p.2)
  | '0' :: 'o' :: cs =>
    (matchDigits (fun c => decide ('0' ≤ c) && decide (c ≤ '7')) cs).map fun p =>
      (.integer (ofDigits 8 p.1), p.2)
  | _ => none

/-- A decimal number. -/
def matchDecimal (cs : List Char) : Option (Number × List Char) :=
  let (sign, rest) := takeSign cs
  (matchIntegerPart rest).map fun (ds, rest) =>
    let (fraction, rest) := takeFraction rest
    let (exponent, rest) := takeExponent rest
    if fraction = [] ∧ exponent = [] then
      if 4300 < ds.length then (.tooLong, rest)
      else (.integer (if sign = ['-'] then -(ofDigits 10 ds : Int) else ofDigits 10 ds), rest)
    else (.float (String.ofList (sign ++ ds ++ fraction ++ exponent)), rest)

/-- An integer or a float that is a number. -/
def matchNumber (cs : List Char) : Option (Number × List Char) :=
  match matchBased cs with
  | some p => some p
  | none => matchDecimal cs

/-! ## Dates and times -/

/-- Two digits within bounds. -/
def matchTwoDigits (lo hi : Nat) : List Char → Option (Nat × List Char)
  | a :: b :: cs =>
    let n := ofDigits 10 [a, b]
    if isDigit a ∧ isDigit b ∧ lo ≤ n ∧ n ≤ hi then some (n, cs) else none
  | _ => none

/-- A certain character. -/
def matchChar (c : Char) : List Char → Option (List Char)
  | [] => none
  | d :: cs => if d = c then some cs else none

/-- The fraction of a second, if there is one. -/
def skipSecondFraction (cs : List Char) : List Char :=
  match cs with
  | '.' :: c :: rest => if isDigit c then rest.dropWhile isDigit else cs
  | _ => cs

/-- A time of day. -/
def matchTime (cs : List Char) : Option (List Char) := do
  let (_, cs) ← matchTwoDigits 0 23 cs
  let (_, cs) ← matchTwoDigits 0 59 (← matchChar ':' cs)
  let (_, cs) ← matchTwoDigits 0 59 (← matchChar ':' cs)
  some (skipSecondFraction cs)

/-- An offset from UTC. -/
def matchOffset : List Char → Option (List Char)
  | [] => none
  | c :: cs =>
    if c = 'Z' ∨ c = 'z' then some cs
    else if c = '+' ∨ c = '-' then do
      let (_, cs) ← matchTwoDigits 0 23 cs
      let (_, cs) ← matchTwoDigits 0 59 (← matchChar ':' cs)
      some cs
    else none

/-- What is left behind a date: a time of day and an offset may follow. -/
def skipTimeOfDate (cs : List Char) : List Char :=
  match cs with
  | [] => []
  | c :: rest =>
    if c = 'T' ∨ c = 't' ∨ c = ' ' then
      match matchTime rest with
      | some rest => (matchOffset rest).getD rest
      | none => cs
    else cs

/-- How many days a month has. -/
def daysInMonth (year month : Nat) : Nat :=
  if month = 2 then
    if year % 4 = 0 ∧ (year % 100 ≠ 0 ∨ year % 400 = 0) then 29 else 28
  else if month = 4 ∨ month = 6 ∨ month = 9 ∨ month = 11 then 30
  else 31

/-- A date, possibly with a time: whether there is such a day, and what is left. -/
def matchDatetime (cs : List Char) : Option (Bool × List Char) := do
  let (century, cs) ← matchTwoDigits 0 99 cs
  let (year, cs) ← matchTwoDigits 0 99 cs
  let (month, cs) ← matchTwoDigits 1 12 (← matchChar '-' cs)
  let (day, cs) ← matchTwoDigits 1 31 (← matchChar '-' cs)
  let year := 100 * century + year
  some (decide (1 ≤ year ∧ day ≤ daysInMonth year month), skipTimeOfDate cs)

end Toml
