import Spork.Models

/-!
# Body cleaning

`core/llm/clean.py` after the HTML has been stripped: the quoted history is cut off, the rest is
truncated, and runs of blank lines are collapsed.  Stripping the HTML itself is the standard
library's `HTMLParser`, and so is a call (`Op.feedHtml`), not a definition.

The four quote markers are regular expressions over lines.  Each is written as a test on the text
that starts at a line start, and the earliest match of any of them is then the first line start at
which one of the tests succeeds.
-/

set_option autoImplicit false

namespace Spork

/-- `c.isspace()`, which is also what `\s` and `str.strip` mean by white space. -/
def isPySpace (c : Char) : Bool :=
  let n := c.toNat
  (9 ≤ n && n ≤ 13) || (28 ≤ n && n ≤ 32) || n == 0x85 || n == 0xa0 || n == 0x1680 ||
    (0x2000 ≤ n && n ≤ 0x200a) || n == 0x2028 || n == 0x2029 || n == 0x202f || n == 0x205f ||
    n == 0x3000

/-- `str.strip`. -/
def pyStrip (s : List Char) : List Char :=
  ((s.dropWhile isPySpace).reverse.dropWhile isPySpace).reverse

/-! ## The quote markers -/

/-- `re.IGNORECASE` on a lower-case ASCII letter `p`, with the two letters that have more than two
cases. -/
def matchesLetter (p c : Char) : Bool :=
  c == p || c == p.toUpper || (p == 's' && c == 'ſ') || (p == 'i' && (c == 'İ' || c == 'ı'))

/-- The rest of a text after a literal prefix, letters taken without case. -/
def dropLiteral : List Char → List Char → Option (List Char)
  | [], cs => some cs
  | _ :: _, [] => none
  | p :: ps, c :: cs => if matchesLetter p c then dropLiteral ps cs else none

/-- `\s*$` with `re.MULTILINE`: the rest of this line is blank. -/
def restOfLineBlank (cs : List Char) : Bool :=
  (cs.takeWhile fun c => c != '\n').all isPySpace

/-- `.{0,n}wrote:\s*$`. -/
def wroteWithin : Nat → List Char → Bool
  | n, cs =>
    ((dropLiteral "wrote:".toList cs).any restOfLineBlank) ||
      match n, cs with
      | n + 1, c :: cs => c != '\n' && wroteWithin n cs
      | _, _ => false

/-- `^On .{0,120}wrote:\s*$`. -/
def isReplyIntro (cs : List Char) : Bool := (dropLiteral "on ".toList cs).any (wroteWithin 120)

/-- `^-{3,}\s*Original Message\s*-{3,}`. -/
def isOriginalMessage (cs : List Char) : Bool :=
  decide (3 ≤ (cs.takeWhile (· == '-')).length) &&
    (dropLiteral "original message".toList
      ((cs.dropWhile (· == '-')).dropWhile isPySpace)).any fun rest =>
        decide (3 ≤ ((rest.dropWhile isPySpace).takeWhile (· == '-')).length)

/-- `^_{10,}\s*$`. -/
def isSeparatorLine (cs : List Char) : Bool :=
  decide (10 ≤ (cs.takeWhile (· == '_')).length) && restOfLineBlank (cs.dropWhile (· == '_'))

/-- One of `_QUOTE_MARKERS` matches here. -/
def isQuoteMarker (cs : List Char) : Bool :=
  cs.head? == some '>' || isReplyIntro cs || isOriginalMessage cs || isSeparatorLine cs

/-- The text up to the first line start where a marker matches. -/
def collapseFrom : Bool → List Char → List Char
  | _, [] => []
  | lineStart, c :: cs =>
    if lineStart && isQuoteMarker (c :: cs) then [] else c :: collapseFrom (c == '\n') cs

/-- `_collapse_quote_chain`. -/
def collapseQuoteChain (text : List Char) : List Char := collapseFrom true text

/-! ## Truncation and blank lines -/

/-- `text[:n]`, with Python's meaning of a negative bound. -/
def pyTake (text : List Char) (n : Int) : List Char :=
  if 0 ≤ n then text.take n.toNat else text.take (text.length - (-n).toNat)

/-- `text.rsplit(" ", 1)[0]`: what stands before the last space, if there is one. -/
def beforeLastSpace (text : List Char) : List Char :=
  if ' ' ∈ text then ((text.reverse.dropWhile (· != ' ')).drop 1).reverse else text

/-- `_truncate`. -/
def truncate (text : List Char) (maxChars : Int) : List Char :=
  if (text.length : Int) ≤ maxChars then text
  else beforeLastSpace (pyTake text maxChars) ++ " ... [truncated]".toList

/-- `_EXCESS_BLANK_LINES.sub("\n\n", text)`, with the length of the run of newlines so far: a
third newline in a row is dropped, and so is every one after it. -/
def collapseBlankLines : Nat → List Char → List Char
  | _, [] => []
  | n, c :: cs =>
    if c == '\n' then
      if n < 2 then c :: collapseBlankLines (n + 1) cs else collapseBlankLines n cs
    else c :: collapseBlankLines 0 cs

/-- `clean_body` on a text without markup. -/
def cleanStripped (stripped : String) (maxChars : Int) : String :=
  String.ofList (pyStrip (collapseBlankLines 0
    (truncate (collapseQuoteChain stripped.toList) maxChars)))

end Spork
