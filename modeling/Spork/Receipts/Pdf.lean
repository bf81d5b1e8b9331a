import Spork.Runtime

/-!
# The pages of an archived receipt

`core/receipts/pdf.py`: the cover, and behind it every attachment in order.  `pypdf` and `reportlab`
are a parameter (`PdfBackend`): a reader that yields the pages of a document one after another and
may fail anywhere, and three functions that render a document of their own.

The writer is changed in place.  What was appended before an exception therefore stays, which is why
every function here returns the writer together with its outcome.
-/

set_option autoImplicit false

namespace Spork

/-- `PdfReader(...).pages`: opening the document or producing a page may fail. -/
inductive PageStream (Page : Type) where
  | ended
  | failed (e : Exn)
  | page (p : Page) (rest : PageStream Page)

namespace PageStream

variable {Page : Type}

/-- The pages that are yielded. -/
def pages : PageStream Page → List Page
  | ended => []
  | failed _ => []
  | page p rest => p :: rest.pages

/-- How the iteration ends. -/
def outcome : PageStream Page → Except Exn Unit
  | ended => .ok ()
  | failed e => .error e
  | page _ rest => rest.outcome

end PageStream

/-- `pypdf` and `reportlab`.  A document of one image, or of a placeholder, has one page. -/
structure PdfBackend (Page : Type) where
  read : List UInt8 → PageStream Page
  coverPageBytes : NormalizedMessage → String → String → Except Exn (List UInt8)
  imagePageBytes : List UInt8 → Except Exn (List UInt8)
  placeholderPageBytes : String → Except Exn (List UInt8)
  image_one : ∀ {data bytes}, imagePageBytes data = .ok bytes → ∃ p, read bytes = .page p .ended
  placeholder_one : ∀ {text bytes}, placeholderPageBytes text = .ok bytes →
    ∃ p, read bytes = .page p .ended

namespace Pdf

variable {Page : Type}

/-- The loop of `_append_pages`. -/
def appendStream : PageStream Page → List Page → Except Exn Unit × List Page
  | .ended, writer => (.ok (), writer)
  | .failed e, writer => (.error e, writer)
  | .page p rest, writer => appendStream rest (writer ++ [p])

/-- `_append_pages`, of a document that may have failed to render. -/
def appendPages (backend : PdfBackend Page) (document : Except Exn (List UInt8))
    (writer : List Page) : Except Exn Unit × List Page :=
  match document with
  | .error e => (.error e, writer)
  | .ok bytes => appendStream (backend.read bytes) writer

/-- The text of a placeholder. -/
def placeholderText (attachment : Attachment) : String :=
  "Attachment not rendered: " ++ attachment.filename ++ " (" ++ attachment.contentType ++ ")"

/-- The end of `_append_attachment`. -/
def appendPlaceholder (backend : PdfBackend Page) (attachment : Attachment) (writer : List Page) :
    Except Exn Unit × List Page :=
  appendPages backend (backend.placeholderPageBytes (placeholderText attachment)) writer

/-- `try: _append_pages(...); return`, and the two handlers: a missing dependency is passed on, and
behind any other failure comes a placeholder. -/
def appendOrPlaceholder (backend : PdfBackend Page) (attachment : Attachment)
    (document : Except Exn (List UInt8)) (writer : List Page) : Except Exn Unit × List Page :=
  match appendPages backend document writer with
  | (.ok (), writer) => (.ok (), writer)
  | (.error e, writer) =>
    if e.cls = .receiptPdfError then (.error e, writer)
    else appendPlaceholder backend attachment writer

/-- `_append_attachment`. -/
def appendAttachment (backend : PdfBackend Page) (attachment : Attachment) (writer : List Page) :
    Except Exn Unit × List Page :=
  if attachment.contentType = "application/pdf" then
    appendOrPlaceholder backend attachment (.ok attachment.data) writer
  else if attachment.contentType.startsWith "image/" then
    appendOrPlaceholder backend attachment (backend.imagePageBytes attachment.data) writer
  else appendPlaceholder backend attachment writer

/-- The loop over the attachments. -/
def appendAttachments (backend : PdfBackend Page) :
    List Attachment → List Page → Except Exn Unit × List Page
  | [], writer => (.ok (), writer)
  | attachment :: attachments, writer =>
    match appendAttachment backend attachment writer with
    | (.ok (), writer) => appendAttachments backend attachments writer
    | (.error e, writer) => (.error e, writer)

/-- `build_receipt_pdf` behind its two checks: the pages of the document. -/
def render (backend : PdfBackend Page) (message : NormalizedMessage) (attachments : List Attachment)
    (company date : String) : Except Exn (List Page) :=
  match appendPages backend (backend.coverPageBytes message company date) [] with
  | (.error e, _) => .error e
  | (.ok (), writer) =>
    match appendAttachments backend attachments writer with
    | (.error e, _) => .error e
    | (.ok (), writer) => .ok writer

/-- `build_receipt_pdf`: the pages of the document. -/
def buildReceiptPdf (backend : PdfBackend Page) (message : NormalizedMessage)
    (attachments : List Attachment) (company date : String) : Except Exn (List Page) :=
  if company = "" then .error ⟨.valueError, "build_receipt_pdf requires a non-empty company"⟩
  else if date = "" then .error ⟨.valueError, "build_receipt_pdf requires a non-empty date"⟩
  else render backend message attachments company date

/-- Documents are rendered with `backend`, and written as `write` says. -/
def Renders (backend : PdfBackend Page) (write : List Page → List UInt8) (env : Env) : Prop :=
  ∀ w message attachments company date,
    env w (.renderReceiptPdf message attachments company date) =
      (render backend message attachments company date).map write

/-- Where documents are rendered with `backend`, the archive's `build_receipt_pdf` is this one. -/
theorem eval_buildReceiptPdf {backend : PdfBackend Page} {write : List Page → List UInt8}
    {env : Env}
    (henv : Renders backend write env) (message : NormalizedMessage) (attachments : List Attachment)
    (company date : String) (w : World) :
    (env.eval (Spork.buildReceiptPdf message attachments company date) w).1 =
      (buildReceiptPdf backend message attachments company date).map write := by
  rw [Spork.buildReceiptPdf, buildReceiptPdf]
  split
  · rfl
  · split
    · rfl
    · exact henv w message attachments company date

end Pdf

end Spork
