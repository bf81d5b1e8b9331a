import Spork.Backtracking
import Spork.Llm.Html

/-!
# The HTML parser

`html.parser.HTMLParser` with `convert_charrefs=True`, as far as `feed` can tell: what it passes to
`handle_data`, and what it raises.  Nothing that a handler does is read again, so a text is first
cut into pieces (`pieces`), and then the pieces are handled one after the other.

A piece ends the parse if it is refused: a marked section without a name that is known is an
`AssertionError`.  Decoding a piece or the value of an attribute may fail as well.
-/

set_option autoImplicit false

namespace Spork

open Backtracking

/-- What `feed` does with a part of its text. -/
inductive Piece where
  /-- `handle_data(unescape(text))` -/
  | decoded (text : List Char)
  /-- `handle_data(text)` -/
  | raw (text : List Char)
  /-- `unescape(text)`, for the value of an attribute. -/
  | value (text : List Char)
  /-- An `AssertionError`. -/
  | refused (message : String)

/-- The texts that are passed to `handle_data`. -/
def Piece.handle (html5 : Html5) : Piece → Except Exn (List String)
  | .decoded text => (unescape html5 (String.ofList text)).map fun data => [data]
  | .raw text => .ok [String.ofList text]
  | .value text => (unescape html5 (String.ofList text)).map fun _ => []
  | .refused message => .error ⟨.other "AssertionError", message⟩

namespace HtmlParser

/-! ## Patterns -/

/-- `[a-zA-Z]` -/
def isLetter (c : Char) : Bool := c.isAlpha

def letter : Pattern := .char isLetter

/-- `\s*` -/
def spaces : Pattern := .star (.char isPySpace)

/-- `(?:\s|/(?!>))*` -/
def spacesAndSlashes : Pattern :=
  .star (.alt (.char isPySpace) (.seq (.char (· == '/')) (.notAhead (· == '>'))))

/-- `[a-zA-Z][^\t\n\r\f />\x00]*` -/
def tagName : Pattern :=
  .seq letter (.star (.char fun c =>
    decide (c ∉ ['\t', '\n', '\r', '\x0c', ' ', '/', '>', '\x00'])))

/-- `tagfind_tolerant` -/
def tagfindTolerant : Pattern := .seq (.group 1 tagName) spacesAndSlashes

def isQuote (c : Char) : Bool := c == '\'' || c == '"'

/-- `(?<=['"\s/])[^\s/>][^\s/=>]*` -/
def attributeName : Pattern :=
  .all [.behind fun c => isQuote c || isPySpace c || c == '/',
    .char fun c => !isPySpace c && c != '/' && c != '>',
    .star (.char fun c => !isPySpace c && c != '/' && c != '=' && c != '>')]

/-- `\s*=+\s*` -/
def valueIndicator : Pattern := .all [spaces, .plus (.char (· == '=')), spaces]

/-- Anything but the quote, between two of them. -/
def quoted (quote : Char) : Pattern :=
  .all [.char (· == quote), .star (.char (· != quote)), .char (· == quote)]

/-- `'[^']*'|"[^"]*"|(?!['"])[^>\s]*` -/
def attributeValue : Pattern :=
  .alt (quoted '\'') (.alt (quoted '"')
    (.seq (.notAhead isQuote) (.star (.char fun c => c != '>' && !isPySpace c))))

/-- `attrfind_tolerant` -/
def attrfindTolerant : Pattern :=
  .all [.group 1 attributeName,
    .opt (.group 2 (.seq valueIndicator (.group 3 attributeValue))), spacesAndSlashes]

/-- `locatestarttagend_tolerant` -/
def locatestarttagendTolerant : Pattern :=
  .all [.char (· == '<'), tagName,
    .opt (.seq (.star (.char fun c => isPySpace c || c == '/'))
      (.star (.all [attributeName, .opt (.all [valueIndicator, attributeValue, spaces]),
        spacesAndSlashes]))),
    spaces]

/-- `endtagfind` -/
def endtagfind : Pattern :=
  .all [.char (· == '<'), .char (· == '/'), spaces,
    .group 1 (.seq letter (.star (.char fun c =>
      isLetter c || c.isDigit || decide (c ∈ ['-', '.', ':', '_'])))),
    spaces, .char (· == '>')]

/-- `commentclose` -/
def commentclose : Pattern := .all [.char (· == '-'), .char (· == '-'), spaces, .char (· == '>')]

/-- `_markedsectionclose` -/
def markedsectionclose : Pattern :=
  .all [.char (· == ']'), spaces, .char (· == ']'), spaces, .char (· == '>')]

/-- `_msmarkedsectionclose` -/
def msmarkedsectionclose : Pattern := .all [.char (· == ']'), spaces, .char (· == '>')]

/-- A letter of a pattern, with `re.IGNORECASE`. -/
def matchesLetter (l c : Char) : Bool :=
  c == l || c == l.toUpper || (l == 's' && c == 'ſ') || (l == 'i' && (c == 'İ' || c == 'ı'))

/-- What `set_cdata_mode` looks for. -/
def cdataclose (elem : List Char) : Pattern :=
  .all ([.char (· == '<'), .char (· == '/'), spaces] ++
    elem.map (fun l => .char (matchesLetter l)) ++ [spaces, .char (· == '>')])

/-! ## Markup

A parser of a construct gets the text from its `<` on, and answers with the pieces of the construct,
`cdata_elem` behind it, and its length; or without the two if `goahead` stops there. -/

/-- What a construct comes to. -/
structure Construct where
  pieces : List Piece
  next : Option (Option (List Char) × Nat)

/-- The construct is not complete. -/
def Construct.incomplete : Construct := ⟨[], none⟩

def Construct.refused (message : String) : Construct := ⟨[.refused message], none⟩

/-- A construct that ends there, if it does, without a piece and outside of a `cdata_elem`. -/
def Construct.upTo : Option Nat → Construct
  | none => .incomplete
  | some k => ⟨[], some (none, k)⟩

/-- `rawdata.find(c, start)` -/
def find (c : Char) (cs : List Char) (start : Nat) : Option Nat :=
  ((cs.drop start).idxOf? c).map (· + start)

/-- Behind the first match from `start` on. -/
def searchEnd (pattern : Pattern) (cs : List Char) (start : Nat) : Option Nat :=
  (search pattern none (cs.drop start)).map fun found => cs.length - found.2.length

/-- `check_for_whole_start_tag` -/
def checkForWholeStartTag (cs : List Char) : Option Nat :=
  (matchAt locatestarttagendTolerant ⟨none, cs, []⟩).bind fun stop =>
    let j := cs.length - stop.rest.length
    match stop.rest with
    | [] => none
    | '>' :: _ => some (j + 1)
    | '/' :: '>' :: _ => some (j + 2)
    | next :: _ => if next = '/' ∨ next = '=' ∨ isLetter next then none else some j

/-- The value of an attribute, without its quotes. -/
def unquote (value : List Char) : List Char :=
  if (value.head? = some '\'' ∧ value.getLast? = some '\'') ∨
      (value.head? = some '"' ∧ value.getLast? = some '"') then value.tail.dropLast
  else value

/-- The value of the attribute that has been found, unless it is empty. -/
def foundValue (groups : List (Nat × List Char)) : List Piece :=
  match groups.lookup 3 with
  | none => []
  | some found => if unquote found = [] then [] else [.value (unquote found)]

/-- The attributes up to the end of the tag, which is so far from the end of the text. -/
def attributes (endLength : Nat) : Nat → Point → List Piece × Point
  | 0, pt => ([], pt)
  | n + 1, pt =>
    if pt.rest.length ≤ endLength then ([], pt)
    else
      match matchAt attrfindTolerant { pt with groups := [] } with
      | none => ([], pt)
      | some stop =>
        let (values, last) := attributes endLength n stop
        (foundValue stop.groups ++ values, last)

/-- `CDATA_CONTENT_ELEMENTS` -/
def cdataContentElements : List (List Char) := ["script".toList, "style".toList]

/-- `parse_starttag` -/
def parseStarttag (cs : List Char) : Construct :=
  match checkForWholeStartTag cs, matchAt tagfindTolerant ⟨some '<', cs.tail, []⟩ with
  | some endpos, some stop =>
    let tag := Unicode.lower ((stop.groups.lookup 1).getD [])
    let (values, last) := attributes (cs.length - endpos) cs.length stop
    let rest := pyStrip (last.rest.take (last.rest.length - (cs.length - endpos)))
    if rest = ['>'] then
      ⟨values, some (if tag ∈ cdataContentElements then some tag else none, endpos)⟩
    else if rest = ['/', '>'] then ⟨values, some (none, endpos)⟩
    else ⟨values ++ [.raw (cs.take endpos)], some (none, endpos)⟩
  | _, _ => .incomplete

/-- `parse_bogus_comment` -/
def parseBogusComment (cs : List Char) : Construct := .upTo ((find '>' cs 2).map (· + 1))

/-- `parse_endtag` -/
def parseEndtag (cdataElem : Option (List Char)) (cs : List Char) : Construct :=
  match find '>' cs 1 with
  | none => .incomplete
  | some gtpos =>
    let skipped : Construct := ⟨[.raw (cs.take (gtpos + 1))], some (cdataElem, gtpos + 1)⟩
    match matchAt endtagfind ⟨none, cs, []⟩ with
    | some stop =>
      let elem := Unicode.lower ((stop.groups.lookup 1).getD [])
      if cdataElem.any (· ≠ elem) then skipped else .upTo (some (gtpos + 1))
    | none =>
      if cdataElem.isSome then skipped
      else
        match matchAt tagfindTolerant ⟨some '/', cs.drop 2, []⟩ with
        | some stop => .upTo ((find '>' cs (cs.length - stop.rest.length)).map (· + 1))
        | none => if cs.take 3 = "</>".toList then .upTo (some 3) else parseBogusComment cs

/-- A character of a name in a declaration. -/
def isDeclnameChar (c : Char) : Bool :=
  isLetter c || c.isDigit || decide (c ∈ ['-', '_', '.'])

/-- The names of marked sections that end in `]]>`. -/
def standardSections : List (List Char) :=
  ["temp", "cdata", "ignore", "include", "rcdata"].map String.toList

/-- Those that end in `]>`. -/
def officeSections : List (List Char) := ["if", "else", "endif"].map String.toList

/-- `parse_marked_section` -/
def parseMarkedSection (cs : List Char) : Construct :=
  match cs.drop 3 with
  | [] => .incomplete
  | c :: _ =>
    if isLetter c then
      let name := (cs.drop 3).takeWhile isDeclnameChar
      let space := ((cs.drop 3).dropWhile isDeclnameChar).takeWhile isPySpace
      if ((cs.drop 3).dropWhile isDeclnameChar).dropWhile isPySpace = [] then .incomplete
      else if Unicode.lower name ∈ standardSections then .upTo (searchEnd markedsectionclose cs 3)
      else if Unicode.lower name ∈ officeSections then .upTo (searchEnd msmarkedsectionclose cs 3)
      else .refused ("unknown status keyword " ++ pyRepr (String.ofList (name ++ space)) ++
        " in marked section")
    else .refused ("expected name token at " ++ pyRepr (String.ofList (cs.take 20)))

/-- `parse_html_declaration` -/
def parseHtmlDeclaration (cs : List Char) : Construct :=
  if "<![".toList <+: cs then parseMarkedSection cs
  else if Unicode.lower (cs.take 9) = "<!doctype".toList then .upTo ((find '>' cs 9).map (· + 1))
  else parseBogusComment cs

/-- The construct that begins with this `<`. -/
def markup (cdataElem : Option (List Char)) (cs : List Char) : Construct :=
  if cs.tail.head?.any isLetter then parseStarttag cs
  else if "</".toList <+: cs then parseEndtag cdataElem cs
  else if "<!--".toList <+: cs then .upTo (searchEnd commentclose cs 4)
  else if "<?".toList <+: cs then .upTo ((find '>' cs 2).map (· + 1))
  else if "<!".toList <+: cs then parseHtmlDeclaration cs
  else if cs.tail ≠ [] then ⟨[.raw ['<']], some (cdataElem, 1)⟩
  else .incomplete

/-! ## Texts -/

/-- The text in front of the next `<` that counts, and what follows; nothing if `goahead` waits for
more. -/
def textInFront : Option (List Char) → List Char → Option (List Char × List Char)
  | none, cs =>
    if '<' ∈ cs then some (cs.takeWhile (· ≠ '<'), cs.dropWhile (· ≠ '<'))
    else if endsInCharref (String.ofList cs) then none
    else some (cs, [])
  | some elem, cs =>
    (search (cdataclose elem) none cs).map fun found => (found.1, cs.drop found.1.length)

/-- A text between two constructs. -/
def textPieces (cdataElem : Option (List Char)) (text : List Char) : List Piece :=
  if text = [] then [] else if cdataElem.isSome then [.raw text] else [.decoded text]

/-- `goahead(0)`, for at most `n` constructs.  Every one of them takes its `<`. -/
def goahead : Nat → Option (List Char) → List Char → List Piece
  | 0, _, _ => []
  | n + 1, cdataElem, cs =>
    match textInFront cdataElem cs with
    | none => []
    | some (text, rest) =>
      textPieces cdataElem text ++
        match rest with
        | [] => []
        | lt :: behind =>
          let construct := markup cdataElem (lt :: behind)
          construct.pieces ++
            match construct.next with
            | none => []
            | some (cdataElem, k) => goahead n cdataElem (behind.drop (k - 1))

theorem length_textInFront {cdataElem : Option (List Char)} {cs text rest : List Char}
    (h : textInFront cdataElem cs = some (text, rest)) : rest.length ≤ cs.length := by
  cases cdataElem with
  | none =>
    rw [textInFront] at h
    split at h
    · cases h
      exact (List.dropWhile_suffix _).length_le
    · split at h
      · cases h
      · cases h
        exact Nat.zero_le _
  | some elem =>
    obtain ⟨found, -, he⟩ := Option.map_eq_some_iff.1 h
    cases he
    exact (List.drop_suffix _ cs).length_le

/-- Once there are enough of them, the number of constructs does not matter. -/
theorem goahead_of_lt : ∀ {n m : Nat} (cdataElem : Option (List Char)) {cs : List Char},
    cs.length < n → cs.length < m → goahead n cdataElem cs = goahead m cdataElem cs
  | n + 1, m + 1, cdataElem, cs, hn, hm => by
    rw [goahead, goahead]
    cases htext : textInFront cdataElem cs with
    | none => rfl
    | some found =>
      obtain ⟨text, rest⟩ := found
      have hrest := length_textInFront htext
      cases rest with
      | nil => rfl
      | cons lt behind =>
        dsimp only
        cases (markup cdataElem (lt :: behind)).next with
        | none => rfl
        | some next =>
          have hdrop := (List.drop_suffix (next.2 - 1) behind).length_le
          rw [List.length_cons] at hrest
          dsimp only
          rw [goahead_of_lt (n := n) (m := m) next.1 (by omega) (by omega)]

/-- The pieces of a text. -/
def pieces (text : List Char) : List Piece := goahead (text.length + 1) none text

end HtmlParser

/-- `HTMLParser`, with these named references. -/
def htmlParser (html5 : Html5) : HtmlParser where
  feed text :=
    ((HtmlParser.pieces text.toList).mapM (Piece.handle html5)).map List.flatten

end Spork
