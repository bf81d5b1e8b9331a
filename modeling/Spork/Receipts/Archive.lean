import Spork.Rules.Engine
import Spork.Json

/-!
# Archiving a receipt

`core/receipts/`: what the `archive_receipt` branch does before its audit row is written.  Company
and date are looked for without a model first (`extractReceipt`); when that declines, one extraction
call is made and the sender is learned.  The message is then tagged, and unless this is a dry run
the combined PDF is built and saved.

Building the pages is left to `pypdf` and `reportlab`, one call `Op.renderReceiptPdf`; the two
arguments that `build_receipt_pdf` rejects before it imports either are checked here.
-/

set_option autoImplicit false

namespace Spork

open Effects

/-! ## Extraction -/

/-- `normalize_sender_domain`. -/
def normalizeSenderDomain (fromDomain : String) : String :=
  pyLower (String.ofList (pyStrip fromDomain.toList))

/-- `(\S.*)` after `\s*`: the rest of the line on which the next visible character stands. -/
def restAfterSpaces (cs : List Char) : Option (List Char) :=
  match cs.dropWhile isPySpace with
  | [] => none
  | c :: cs => some ((c :: cs).takeWhile fun c => c != '\n')

/-- `_BODY_DATE_PATTERNS` at one position. -/
def dateMarkerAt (cs : List Char) : Option (List Char) :=
  ["invoice date:", "payment date:", "receipt date:"].findSome? fun marker =>
    (dropLiteral marker.toList cs).bind restAfterSpaces

/-- `pattern.search(body)`: the earliest match. -/
def searchDate : List Char → Option (List Char)
  | [] => none
  | c :: cs =>
    match dateMarkerAt (c :: cs) with
    | some found => some found
    | none => searchDate cs

/-- `extract_date`: the `Date` header first, then a marker in the body. -/
def extractDate (message : NormalizedMessage) : Option String :=
  match message.header "Date" with
  | some date =>
    if date ≠ "" then some (String.ofList (pyStrip date.toList))
    else (searchDate message.bodyText.toList).map fun cs => String.ofList (pyStrip cs)
  | none => (searchDate message.bodyText.toList).map fun cs => String.ofList (pyStrip cs)

/-- A curated domain → company source, answering with the record's company if it has one. -/
structure SenderDomainLookup where
  lookupDomain : String → Proc (Option (Option String))

/-- The lookup of the configured knowledgebase. -/
def SenderDomainLookup.live : SenderDomainLookup := ⟨fun domain => call (.lookupDomain domain)⟩

/-- `resolve_company`: curated data first, then what was learned. -/
def resolveCompany (fromDomain : String) (knownSender : Option KnownSender)
    (domainLookup : Option SenderDomainLookup) : Proc (Option String) :=
  let learned := knownSender.map KnownSender.company
  match domainLookup with
  | none => pure learned
  | some lookup => do
    match ← lookup.lookupDomain fromDomain with
    | some (some company) => if company ≠ "" then pure (some company) else pure learned
    | _ => pure learned

/-- `extract_receipt`: both halves, or decline. -/
def extractReceipt (message : NormalizedMessage) (knownSender : Option KnownSender)
    (domainLookup : Option SenderDomainLookup) : Proc (Option ReceiptExtraction) := do
  match ← resolveCompany message.fromDomain knownSender domainLookup with
  | none => pure none
  | some company =>
    match extractDate message with
    | none => pure none
    | some date => pure (some ⟨company, date⟩)

/-! ## Saving -/

/-- A `pathlib` path: its root (`""`, `"/"` or `"//"`) and its components. -/
structure PyPath where
  root : String
  parts : List String
  deriving DecidableEq, Repr

/-- Split at every `/`. -/
def splitSlash : List Char → List (List Char)
  | [] => [[]]
  | c :: cs =>
    match splitSlash cs with
    | [] => [[c]]
    | part :: parts => if c = '/' then [] :: part :: parts else (c :: part) :: parts

/-- `Path(s)`: empty components and `.` disappear, and two leading slashes are a root of their
own. -/
def PyPath.parse (s : String) : PyPath where
  root :=
    match (s.toList.takeWhile (· = '/')).length with
    | 0 => ""
    | 2 => "//"
    | _ => "/"
  parts := ((splitSlash s.toList).filter fun part => part ≠ [] ∧ part ≠ ['.']).map String.ofList

/-- `path / name`: an absolute name replaces the path. -/
def PyPath.join (path : PyPath) (name : String) : PyPath :=
  if (PyPath.parse name).root = "" then ⟨path.root, path.parts ++ (PyPath.parse name).parts⟩
  else PyPath.parse name

/-- `str(path)`. -/
def PyPath.str (path : PyPath) : String :=
  if path.root = "" ∧ path.parts = [] then "." else path.root ++ String.intercalate "/" path.parts

/-- `re.sub(r"[^a-z0-9]+", "-", ...)`, with whether the previous character was replaced. -/
def hyphenate : Bool → List Char → List Char
  | _, [] => []
  | replaced, c :: cs =>
    if ('a' ≤ c ∧ c ≤ 'z') ∨ ('0' ≤ c ∧ c ≤ '9') then c :: hyphenate false cs
    else if replaced then hyphenate true cs
    else '-' :: hyphenate true cs

/-- `.strip("-")`. -/
def stripHyphens (cs : List Char) : List Char :=
  ((cs.dropWhile (· = '-')).reverse.dropWhile (· = '-')).reverse

/-- `_slugify`. -/
def slugify (value : String) : String :=
  let slug := stripHyphens (hyphenate false (pyLower value).toList)
  if slug = [] then "unknown" else String.ofList slug

/-- The file name `save_pdf` writes to. -/
def receiptFilename (messageId company date : String) : String :=
  date ++ "-" ++ slugify company ++ "-" ++ slugify messageId ++ ".pdf"

/-- `save_pdf`: any `OSError` becomes a `ReceiptArchiveError`. -/
def savePdf (pdfBytes : List UInt8) (outputDir : PyPath) (messageId company date : String) :
    Proc PyPath :=
  let path := outputDir.join (receiptFilename messageId company date)
  (do call (.writeBytes path.str pdfBytes); pure path : Proc PyPath).tryCatch fun e =>
    if e.cls = .other "OSError" then
      raise .receiptArchiveError ("could not save receipt PDF to " ++ outputDir.str ++ ": " ++
        e.message)
    else Prog.raise e

/-- `build_receipt_pdf`. -/
def buildReceiptPdf (message : NormalizedMessage) (attachments : List Attachment)
    (company date : String) : Proc (List UInt8) :=
  if company = "" then raise .valueError "build_receipt_pdf requires a non-empty company"
  else if date = "" then raise .valueError "build_receipt_pdf requires a non-empty date"
  else call (.renderReceiptPdf message attachments company date)

/-! ## The branch's own stage -/

/-- The collaborators `ArchiveReceiptAugment` needs. -/
structure ReceiptArchiveComponents where
  fetchAttachments : NormalizedMessage → Proc (List Attachment)
  keywordApplier : KeywordApplier
  extractReceipt : ReceiptExtractionRequest → Proc ReceiptExtraction
  outputDir : PyPath
  domainLookup : Option SenderDomainLookup := none
  dryRun : Bool := false

/-- The components of a live deployment. -/
def ReceiptArchiveComponents.live (outputDir : PyPath)
    (domainLookup : Option SenderDomainLookup) : ReceiptArchiveComponents where
  fetchAttachments message := call (.fetchAttachments message)
  keywordApplier := .live
  extractReceipt request := call (.extractReceipt request)
  outputDir := outputDir
  domainLookup := domainLookup

/-- Company and date of a receipt: deterministically, or by one extraction call, after which the
sender is learned. -/
def resolveReceipt (components : ReceiptArchiveComponents) (message : NormalizedMessage)
    (ts : Option String) : Proc ReceiptExtraction := do
  let normalizedDomain := normalizeSenderDomain message.fromDomain
  let knownSender ← call (.getKnownSender normalizedDomain)
  match ← extractReceipt message knownSender components.domainLookup with
  | some extraction => pure extraction
  | none =>
    let extraction ← components.extractReceipt
      ⟨message.subject, message.fromAddress, message.fromDomain, message.bodyText⟩
    call (.learnKnownSender ⟨normalizedDomain, extraction.company, "tier2", ts.getD ""⟩)
    pure extraction

/-- The PDF half, skipped in a dry run. -/
def archivePdf (components : ReceiptArchiveComponents) (message : NormalizedMessage)
    (extraction : ReceiptExtraction) : Proc (Option PyPath) :=
  if components.dryRun then pure none
  else do
    let attachments ← components.fetchAttachments message
    let pdfBytes ← buildReceiptPdf message attachments extraction.company extraction.date
    let path ← savePdf pdfBytes components.outputDir message.messageId extraction.company
      extraction.date
    pure (some path)

/-- The keywords a receipt is tagged with. -/
def receiptKeywords (extraction : ReceiptExtraction) : List String :=
  ["receipt", "company:" ++ extraction.company, "date:" ++ extraction.date]

/-- The audit detail of an archived receipt. -/
def receiptDetail (components : ReceiptArchiveComponents) (extraction : ReceiptExtraction)
    (path : Option PyPath) : String :=
  jsonObject [("company", jsonString extraction.company), ("date", jsonString extraction.date),
    ("path", jsonOptString (path.map PyPath.str)), ("dry_run", jsonBool components.dryRun)]

/-- The whole of `ArchiveReceiptAugment.augment` but for the payload: everything it calls, and the
audit detail it comes back with. -/
def archiveReceipt (components : ReceiptArchiveComponents) (message : NormalizedMessage)
    (ts : Option String) : Proc String := do
  let extraction ← resolveReceipt components message ts
  components.keywordApplier.applyKeywords message (receiptKeywords extraction)
  let path ← archivePdf components message extraction
  pure (receiptDetail components extraction path)

end Spork
