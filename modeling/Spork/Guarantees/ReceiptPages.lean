import Spork.Receipts.Pdf

/-!
# Every attachment is accounted for

The pages behind the cover of an archived receipt.  Each attachment only ever appends pages
(`appendAttachment_eq`), so a document is its cover and one run of pages for each attachment, in
order (`buildReceiptPdf_pages`).  Whether such a run is what it should be, one whole document, one
image or one placeholder, is decided by the attachment alone (`isBlock_appended_iff`).
-/

set_option autoImplicit false

namespace Spork

namespace Pdf

variable {Page : Type} {backend : PdfBackend Page} {attachment : Attachment}

/-! ## Appending -/

theorem appendStream_eq : ∀ (stream : PageStream Page) (writer : List Page),
    appendStream stream writer = (stream.outcome, writer ++ stream.pages)
  | .ended, writer => by rw [appendStream, PageStream.pages, List.append_nil]; rfl
  | .failed e, writer => by rw [appendStream, PageStream.pages, List.append_nil]; rfl
  | .page p rest, writer => by
    rw [appendStream, appendStream_eq rest, PageStream.pages, List.append_assoc]
    rfl

/-- The pages of a document that may have failed to render, and how appending them ends. -/
def documentPages (backend : PdfBackend Page) :
    Except Exn (List UInt8) → Except Exn Unit × List Page
  | .error e => (.error e, [])
  | .ok bytes => ((backend.read bytes).outcome, (backend.read bytes).pages)

theorem appendPages_eq (document : Except Exn (List UInt8)) (writer : List Page) :
    appendPages backend document writer =
      ((documentPages backend document).1, writer ++ (documentPages backend document).2) := by
  cases document with
  | error e => rw [appendPages, documentPages, List.append_nil]
  | ok bytes => exact appendStream_eq _ _

/-- What an attachment appends, and how that ends. -/
def appended (backend : PdfBackend Page) (attachment : Attachment) : Except Exn Unit × List Page :=
  appendAttachment backend attachment []

theorem appendOrPlaceholder_eq (document : Except Exn (List UInt8)) (writer : List Page) :
    appendOrPlaceholder backend attachment document writer =
      ((appendOrPlaceholder backend attachment document []).1,
        writer ++ (appendOrPlaceholder backend attachment document []).2) := by
  rw [appendOrPlaceholder, appendOrPlaceholder, appendPages_eq, appendPages_eq document []]
  cases (documentPages backend document).1 with
  | ok _ => rfl
  | error e =>
    dsimp only
    split
    · rfl
    · rw [appendPlaceholder, appendPlaceholder, appendPages_eq, appendPages_eq _ ([] ++ _)]
      simp

/-- **An attachment only appends.** -/
theorem appendAttachment_eq (attachment : Attachment) (writer : List Page) :
    appendAttachment backend attachment writer =
      ((appended backend attachment).1, writer ++ (appended backend attachment).2) := by
  rw [appended, appendAttachment, appendAttachment]
  split
  · exact appendOrPlaceholder_eq _ _
  · split
    · exact appendOrPlaceholder_eq _ _
    · rw [appendPlaceholder, appendPlaceholder, appendPages_eq, appendPages_eq _ []]
      rfl

/-- What a list of attachments appends, if none of them fails. -/
theorem appendAttachments_ok : ∀ {attachments : List Attachment} {writer writer' : List Page},
    appendAttachments backend attachments writer = (.ok (), writer') →
      (∀ attachment ∈ attachments, (appended backend attachment).1 = .ok ()) ∧
        writer' = writer ++ (attachments.map fun attachment =>
          (appended backend attachment).2).flatten
  | [], writer, writer', h => by
    rw [appendAttachments, Prod.mk.injEq] at h
    refine ⟨fun _ hmem => absurd hmem List.not_mem_nil, ?_⟩
    rw [← h.2, List.map_nil, List.flatten_nil, List.append_nil]
  | attachment :: attachments, writer, writer', h => by
    rw [appendAttachments, appendAttachment_eq] at h
    cases hfirst : (appended backend attachment).1 with
    | error e =>
      rw [hfirst] at h
      cases h
    | ok _ =>
      rw [hfirst] at h
      obtain ⟨hrest, hwriter⟩ := appendAttachments_ok h
      refine ⟨List.forall_mem_cons.2 ⟨hfirst, hrest⟩, ?_⟩
      rw [hwriter, List.map_cons, List.flatten_cons, List.append_assoc]

/-- A document is its cover, and behind it what each attachment appends. -/
theorem buildReceiptPdf_pages {message : NormalizedMessage} {attachments : List Attachment}
    {company date : String} {pages : List Page}
    (h : buildReceiptPdf backend message attachments company date = .ok pages) :
    (∀ attachment ∈ attachments, (appended backend attachment).1 = .ok ()) ∧
      pages = (documentPages backend (backend.coverPageBytes message company date)).2 ++
        (attachments.map fun attachment => (appended backend attachment).2).flatten := by
  rw [buildReceiptPdf] at h
  split at h
  · cases h
  · split at h
    · cases h
    · rw [render, appendPages_eq] at h
      cases hcover : (documentPages backend (backend.coverPageBytes message company date)).1 with
      | error e =>
        rw [hcover] at h
        cases h
      | ok _ =>
        rw [hcover] at h
        dsimp only at h
        cases hrest : appendAttachments backend attachments ([] ++
            (documentPages backend (backend.coverPageBytes message company date)).2) with
        | mk outcome writer =>
          rw [hrest] at h
          cases outcome with
          | error e => cases h
          | ok _ =>
            obtain ⟨hall, hwriter⟩ := appendAttachments_ok hrest
            exact ⟨hall, (Except.ok.inj h).symm.trans hwriter⟩

/-! ## Blocks -/

/-- The pages of one attachment: all pages of a document, one image page, or one placeholder that
names the attachment. -/
inductive IsBlock (backend : PdfBackend Page) (attachment : Attachment) : List Page → Prop where
  | document (htype : attachment.contentType = "application/pdf")
      (hall : (backend.read attachment.data).outcome = .ok ())
      (hne : (backend.read attachment.data).pages ≠ []) :
      IsBlock backend attachment (backend.read attachment.data).pages
  | image {bytes : List UInt8} {p : Page}
      (htype : attachment.contentType.startsWith "image/" = true)
      (himage : backend.imagePageBytes attachment.data = .ok bytes)
      (hread : backend.read bytes = .page p .ended) : IsBlock backend attachment [p]
  | placeholder {bytes : List UInt8} {p : Page}
      (hplaceholder : backend.placeholderPageBytes (placeholderText attachment) = .ok bytes)
      (hread : backend.read bytes = .page p .ended) : IsBlock backend attachment [p]

/-- The pages behind the cover are one non-empty block for each attachment, in order. -/
def AccountedFor (backend : PdfBackend Page) (cover : List Page) (attachments : List Attachment)
    (pages : List Page) : Prop :=
  ∃ blocks, pages = cover ++ blocks.flatten ∧ List.Forall₂ (fun attachment block =>
    block = (appended backend attachment).2 ∧ block ≠ [] ∧ IsBlock backend attachment block)
      attachments blocks

/-- A PDF can be read to its end and has a page, or fails before its first page. -/
def WholeOrUnreadable (backend : PdfBackend Page) (attachment : Attachment) : Prop :=
  attachment.contentType = "application/pdf" →
    ((backend.read attachment.data).outcome = .ok () ↔ (backend.read attachment.data).pages ≠ [])

theorem IsBlock.ne_nil {block : List Page} (h : IsBlock backend attachment block) : block ≠ [] := by
  cases h with
  | document htype hall hne => exact hne
  | image htype himage hread => exact List.cons_ne_nil _ _
  | placeholder hplaceholder hread => exact List.cons_ne_nil _ _

theorem pdf_not_image : "application/pdf".startsWith "image/" = false := by decide +kernel

/-- A placeholder is one page, behind whatever is there already. -/
theorem appendPlaceholder_ok {writer : List Page}
    (hok : (appendPlaceholder backend attachment writer).1 = .ok ()) :
    ∃ p, (appendPlaceholder backend attachment writer).2 = writer ++ [p] ∧
      IsBlock backend attachment [p] := by
  rw [appendPlaceholder, appendPages_eq] at hok ⊢
  cases hbytes : backend.placeholderPageBytes (placeholderText attachment) with
  | error e =>
    rw [hbytes] at hok
    cases hok
  | ok bytes =>
    obtain ⟨p, hread⟩ := backend.placeholder_one hbytes
    refine ⟨p, ?_, .placeholder hbytes hread⟩
    rw [documentPages, hread]
    rfl

/-- A PDF, without the placeholder: its pages, if it can be read to its end. -/
theorem appendOrPlaceholder_read {data : List UInt8}
    (hread : (backend.read data).outcome = .ok ()) :
    (appendOrPlaceholder backend attachment (.ok data) []).2 = (backend.read data).pages := by
  rw [appendOrPlaceholder, appendPages_eq, documentPages, hread]
  rfl

/-- A document that fails: the pages before the failure, and the placeholder. -/
theorem appendOrPlaceholder_failed {document : Except Exn (List UInt8)} {e : Exn}
    (hread : (documentPages backend document).1 = .error e)
    (hok : (appendOrPlaceholder backend attachment document []).1 = .ok ()) :
    ∃ p, (appendOrPlaceholder backend attachment document []).2 =
      (documentPages backend document).2 ++ [p] ∧ IsBlock backend attachment [p] := by
  rw [appendOrPlaceholder, appendPages_eq, hread, List.nil_append] at hok ⊢
  dsimp only at hok ⊢
  split at hok
  · cases hok
  · next hcls =>
    rw [if_neg hcls]
    exact appendPlaceholder_ok hok

/-- What an attachment that is no PDF appends is a block. -/
theorem isBlock_appended_of_not_pdf (htype : attachment.contentType ≠ "application/pdf")
    (hok : (appended backend attachment).1 = .ok ()) :
    IsBlock backend attachment (appended backend attachment).2 := by
  rw [appended, appendAttachment, if_neg htype] at hok ⊢
  split at hok
  · next himage =>
    rw [if_pos himage]
    cases hbytes : backend.imagePageBytes attachment.data with
    | error e =>
      rw [hbytes] at hok
      obtain ⟨p, hpages, hblock⟩ := appendOrPlaceholder_failed rfl hok
      rw [hpages]
      exact hblock
    | ok bytes =>
      obtain ⟨p, hread⟩ := backend.image_one hbytes
      rw [appendOrPlaceholder_read (by rw [hread]; rfl), hread]
      exact .image himage hbytes hread
  · next himage =>
    rw [if_neg himage]
    obtain ⟨p, hpages, hblock⟩ := appendPlaceholder_ok hok
    rw [hpages]
    exact hblock

/-- **What an attachment appends is a block** just when, if it is a PDF, it is whole or
unreadable. -/
theorem isBlock_appended_iff (hok : (appended backend attachment).1 = .ok ()) :
    IsBlock backend attachment (appended backend attachment).2 ↔
      WholeOrUnreadable backend attachment := by
  by_cases htype : attachment.contentType = "application/pdf"
  · have himage : ¬attachment.contentType.startsWith "image/" = true := by
      rw [htype, pdf_not_image]
      exact Bool.false_ne_true
    rw [WholeOrUnreadable]
    simp only [htype, forall_const]
    rw [appended, appendAttachment, if_pos htype] at hok ⊢
    cases hread : (backend.read attachment.data).outcome with
    | ok _ =>
      rw [appendOrPlaceholder_read hread]
      exact ⟨fun h => ⟨fun _ => h.ne_nil, fun _ => rfl⟩,
        fun h => .document htype hread (h.1 rfl)⟩
    | error e =>
      have hread' : (documentPages backend (.ok attachment.data)).1 = .error e := hread
      obtain ⟨p, hpages, hblock⟩ := appendOrPlaceholder_failed hread' hok
      rw [hpages, documentPages]
      simp only [reduceCtorEq, false_iff, not_not]
      constructor
      · intro h
        generalize hblock' : (backend.read attachment.data).pages ++ [p] = block at h
        cases h with
        | document _ hall _ => rw [hread] at hall; cases hall
        | image himage' _ _ => exact absurd himage' himage
        | placeholder _ _ => simpa using congrArg List.length hblock'
      · intro hnil
        rwa [hnil, List.nil_append]
  · exact ⟨fun _ h => absurd h htype, fun _ => isBlock_appended_of_not_pdf htype hok⟩

/-- **Every attachment is accounted for** just when every PDF among them is whole or unreadable.
The document is the one that is saved. -/
theorem attachments_accounted_for_iff (backend : PdfBackend Page) (message : NormalizedMessage)
    (attachments : List Attachment) (company date : String) {pages : List Page}
    (hbuild : buildReceiptPdf backend message attachments company date = .ok pages) :
    (AccountedFor backend (documentPages backend (backend.coverPageBytes message company date)).2
        attachments pages ↔
      ∀ attachment ∈ attachments, WholeOrUnreadable backend attachment) ∧
    ∀ (write : List Page → List UInt8) (env : Env) (w : World), Renders backend write env →
      (env.eval (Spork.buildReceiptPdf message attachments company date) w).1
        = .ok (write pages) := by
  obtain ⟨hok, hpages⟩ := buildReceiptPdf_pages hbuild
  refine ⟨?_, fun write env w henv => by rw [eval_buildReceiptPdf henv, hbuild, Except.map]⟩
  constructor
  · rintro ⟨blocks, -, hblocks⟩ attachment hmem
    have hall : List.Forall₂ (fun attachment _ =>
        IsBlock backend attachment (appended backend attachment).2 ∧ True) attachments blocks := by
      refine hblocks.imp fun attachment block h => ⟨?_, trivial⟩
      rw [← h.1]
      exact h.2.2
    have hblock := ((List.forall₂_and_left _ _).1 hall).1 attachment hmem
    exact (isBlock_appended_iff (hok attachment hmem)).1 hblock
  · intro h
    refine ⟨attachments.map fun attachment => (appended backend attachment).2, hpages, ?_⟩
    rw [List.forall₂_map_right_iff, List.forall₂_same]
    intro attachment hmem
    have hblock := (isBlock_appended_iff (hok attachment hmem)).2 (h attachment hmem)
    exact ⟨rfl, hblock.ne_nil, hblock⟩

/-! ### A document that breaks off -/

/-- A reader of texts: every character is a page, and the reader gives up at a `!`. -/
def readLetters : List UInt8 → PageStream UInt8
  | [] => .ended
  | byte :: bytes => if byte = 33 then .failed ⟨.other "PdfReadError", "EOF marker not found"⟩
    else .page byte (readLetters bytes)

/-- Documents of which every byte is a page. -/
def textBackend : PdfBackend UInt8 where
  read := readLetters
  coverPageBytes _ _ _ := .ok [67]
  imagePageBytes _ := .ok [73]
  placeholderPageBytes _ := .ok [80]
  image_one := by
    rintro data bytes ⟨⟩
    exact ⟨73, rfl⟩
  placeholder_one := by
    rintro text bytes ⟨⟩
    exact ⟨80, rfl⟩

/-- A PDF of two pages. -/
def invoice : Attachment := ⟨"invoice.pdf", "application/pdf", [65, 66]⟩

/-- A PDF that breaks off behind its first page. -/
def brokenInvoice : Attachment := ⟨"invoice.pdf", "application/pdf", [65, 33]⟩

theorem invoice_accounted_for : AccountedFor textBackend [67] [invoice] [67, 65, 66] :=
  (attachments_accounted_for_iff textBackend letter [invoice] "Acme" "2026-01-05" rfl).1.2
    (by simp [WholeOrUnreadable, textBackend, invoice, readLetters, PageStream.pages,
      PageStream.outcome])

/-- A PDF that breaks off leaves its first page and a placeholder. -/
theorem broken_invoice_is_mixed :
    buildReceiptPdf textBackend letter [brokenInvoice] "Acme" "2026-01-05" = .ok [67, 65, 80] ∧
      ¬AccountedFor textBackend [67] [brokenInvoice] [67, 65, 80] := by
  refine ⟨rfl, ?_⟩
  rintro ⟨blocks, -, hblocks⟩
  cases hblocks with
  | cons h _ =>
    obtain ⟨rfl, -, hblock⟩ := h
    have hwhole := (isBlock_appended_iff rfl).1 hblock rfl
    exact absurd (hwhole.2 (List.cons_ne_nil _ _)) (by rintro ⟨⟩)

end Pdf

end Spork
