import Spork.Llm.Clean
import Spork.Pipeline.Tier2.Modules
import Spork.Evaluation
import Spork.Toml.Tokens

/-!
# Stripping HTML

The rest of `core/llm/clean.py`: `_TagStripper`, `_strip_html` and `clean_body`.

`html.parser.HTMLParser` is a parameter, by what `feed` passes to `handle_data`.  What is assumed of
it is about texts without a `<` (`HtmlParser.FeedsPlainText`): such a text is decoded and passed on
as a whole, unless it ends in what may be half of a character reference; then it is kept until
`close` is called.  Decoding is `html.unescape`, over the table of the named references.
-/

set_option autoImplicit false

namespace Spork

open Toml (isDigit isHexDigit ofDigits)

/-! ## Character references -/

/-- `html.entities.html5`: the named references, each with its semicolon if it has one. -/
abbrev Html5 : Type := List Char → Option (List Char)

/-- `_invalid_charrefs`: numbers that stand for another character. -/
def invalidCharrefs : List (Nat × Nat) :=
  [(0x00, 0xfffd), (0x0d, 0x0d), (0x80, 0x20ac), (0x81, 0x81), (0x82, 0x201a), (0x83, 0x0192),
    (0x84, 0x201e), (0x85, 0x2026), (0x86, 0x2020), (0x87, 0x2021), (0x88, 0x02c6),
    (0x89, 0x2030), (0x8a, 0x0160), (0x8b, 0x2039), (0x8c, 0x0152), (0x8d, 0x8d), (0x8e, 0x017d),
    (0x8f, 0x8f), (0x90, 0x90), (0x91, 0x2018), (0x92, 0x2019), (0x93, 0x201c), (0x94, 0x201d),
    (0x95, 0x2022), (0x96, 0x2013), (0x97, 0x2014), (0x98, 0x02dc), (0x99, 0x2122),
    (0x9a, 0x0161), (0x9b, 0x203a), (0x9c, 0x0153), (0x9d, 0x9d), (0x9e, 0x017e), (0x9f, 0x0178)]

/-- `_invalid_codepoints`: numbers that stand for nothing. -/
def isInvalidCodepoint (n : Nat) : Bool :=
  (1 ≤ n && n ≤ 8) || n == 0xb || (0xe ≤ n && n ≤ 0x1f) || (0x7f ≤ n && n ≤ 0x9f) ||
    (0xfdd0 ≤ n && n ≤ 0xfdef) || 0xfffe ≤ n % 0x10000

/-- What a numeric reference stands for. -/
def numericCharref (n : Nat) : List Char :=
  match invalidCharrefs.lookup n with
  | some m => [Char.ofNat m]
  | none =>
    if (0xd800 ≤ n ∧ n ≤ 0xdfff) ∨ 0x10ffff < n then ['\ufffd']
    else if isInvalidCodepoint n then []
    else [Char.ofNat n]

/-- `int` of a decimal text. -/
def intOfDigits (ds : List Char) : Except Exn Nat :=
  if 4300 < ds.length then
    .error ⟨.valueError, "Exceeds the limit (4300 digits) for integer string conversion: value has "
      ++ toString ds.length ++
        " digits; use sys.set_int_max_str_digits() to increase the limit"⟩
  else .ok (ofDigits 10 ds)

/-- A character of a name. -/
def isNameChar (c : Char) : Bool :=
  decide (c ∉ ['\t', '\n', '\x0c', ' ', '<', '&', '#', ';'])

/-- The longest prefix of `name` that is a reference, of at most `n` and at least two characters,
and what is left of the name. -/
def longestCharref (html5 : Html5) (name : List Char) : Nat → Option (List Char)
  | n + 2 =>
    match html5 (name.take (n + 2)) with
    | some value => some (value ++ name.drop (n + 2))
    | none => longestCharref html5 name (n + 1)
  | _ => none

/-- `_replace_charref` on a name: what it stands for, if it is a reference at all. -/
def namedCharref (html5 : Html5) (name : List Char) : Option (List Char) :=
  match html5 name with
  | some value => some value
  | none => longestCharref html5 name (name.length - 1)

/-- `;?` -/
def dropSemicolon : List Char → List Char
  | ';' :: cs => cs
  | cs => cs

/-- `_charref` behind its `&`: what the reference stands for, and what is left behind it. -/
def charrefAt (html5 : Html5) (cs : List Char) : Option (Except Exn (List Char) × List Char) :=
  match cs with
  | '#' :: 'x' :: cs => hexadecimal cs
  | '#' :: 'X' :: cs => hexadecimal cs
  | '#' :: cs =>
    let ds := cs.takeWhile isDigit
    if ds = [] then none
    else some ((intOfDigits ds).map numericCharref, dropSemicolon (cs.dropWhile isDigit))
  | cs =>
    let name := (cs.take 32).takeWhile isNameChar
    let rest := cs.drop name.length
    if name = [] then none
    else if rest.head? = some ';' then
      (namedCharref html5 (name ++ [';'])).map fun value => (.ok value, rest.tail)
    else (namedCharref html5 name).map fun value => (.ok value, rest)
where
  hexadecimal (cs : List Char) : Option (Except Exn (List Char) × List Char) :=
    let ds := cs.takeWhile isHexDigit
    if ds = [] then none
    else some (.ok (numericCharref (ofDigits 16 ds)), dropSemicolon (cs.dropWhile isHexDigit))

/-- `_charref.sub(_replace_charref, cs)`, for at most `n` characters.  A name that is no reference
is left as it is, and there is no other `&` in it. -/
def unescapeFrom (html5 : Html5) : Nat → List Char → Except Exn (List Char)
  | 0, cs => .ok cs
  | _, [] => .ok []
  | n + 1, c :: cs =>
    match if c = '&' then charrefAt html5 cs else none with
    | some (value, rest) => do
      let value ← value
      let text ← unescapeFrom html5 n rest
      .ok (value ++ text)
    | none => do
      let text ← unescapeFrom html5 n cs
      .ok (c :: text)

/-- `html.unescape`. -/
def unescape (html5 : Html5) (s : String) : Except Exn String :=
  (unescapeFrom html5 s.toList.length s.toList).map String.ofList

/-! ## The parser -/

/-- `HTMLParser(convert_charrefs=True)`, by the texts that `feed` passes to `handle_data`. -/
structure HtmlParser where
  feed : String → Except Exn (List String)

/-- The last `&` is one of the last 34 characters, and neither white space nor a semicolon stands
behind it. -/
def endsInCharref (s : String) : Bool :=
  let behind := s.toList.reverse.takeWhile (· ≠ '&')
  decide ('&' ∈ s.toList) && decide (behind.length < 34) &&
    behind.all fun c => !isPySpace c && c != ';'

/-- What `feed` does with a text without a `<`. -/
structure HtmlParser.FeedsPlainText (parser : HtmlParser) (html5 : Html5) : Prop where
  passes : ∀ s : String, '<' ∉ s.toList → endsInCharref s = false →
    (parser.feed s).map String.join = unescape html5 s
  buffers : ∀ s : String, '<' ∉ s.toList → endsInCharref s = true → parser.feed s = .ok []

/-- `_strip_html`: the texts collected by `_TagStripper`, without a `close`. -/
def stripHtml (parser : HtmlParser) (text : String) : Except Exn String :=
  (parser.feed text).map String.join

/-- `clean_body`. -/
def cleanBody (parser : HtmlParser) (bodyText : String) (maxChars : Int) : Except Exn String := do
  let text ← stripHtml parser bodyText
  .ok (cleanStripped text maxChars)

/-- In the world of `env`, it is this parser that Tier 2 feeds. -/
def Env.Parses (env : Env) (parser : HtmlParser) : Prop :=
  ∀ w text, env w (.feedHtml text) = stripHtml parser text

/-- What Tier 2 does is `clean_body`, and the store stays as it is. -/
theorem Env.Parses.cleanBody_eval {parser : HtmlParser} {env : Env} (h : env.Parses parser)
    (bodyText : String) (maxChars : Int) (w : World) :
    env.eval (Tier2.cleanBody bodyText maxChars) w = (cleanBody parser bodyText maxChars,
      w.record (.feedHtml bodyText) (stripHtml parser bodyText) w.db) := by
  rw [Tier2.cleanBody, cleanBody]
  have heval : env.eval (call (.feedHtml bodyText)) w
      = (stripHtml parser bodyText,
        w.record (.feedHtml bodyText) (stripHtml parser bodyText) w.db) := by
    rw [← h w]
    rfl
  cases hstrip : stripHtml parser bodyText with
  | ok text =>
    rw [hstrip] at heval
    exact Env.eval_bind_ok heval
  | error e =>
    rw [hstrip] at heval
    exact Env.eval_bind_error heval

end Spork
