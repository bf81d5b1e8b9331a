import Spork.Guarantees.ReceiptExtraction

/-!
# Where receipts are saved

`core/receipts/archive.py`: which paths `save_pdf` writes to.

* `receipt_written_inside_iff`: in every run of `ArchiveReceiptAugment.augment`, a receipt is
  written directly inside the configured directory just when its date does not lead out of it.
* `receipts_never_overwrite_iff`: for which two message ids the files are always different.
-/

set_option autoImplicit false

namespace Spork

open Effects Machine

/-! ## Inside the configured directory -/

/-- The directory that a date names: what stands before its last `/`. -/
def dateDirectory (date : String) : PyPath := .parse (String.ofList (directoryPart date.toList))

/-- A date does not lead out of a directory: it names no directory of its own, or is absolute and
names this one. -/
def DateStaysIn (outputDir : PyPath) (date : String) : Prop :=
  if (dateDirectory date).root = "" then (dateDirectory date).parts = []
  else dateDirectory date = outputDir

theorem PyPath.join_eq_self {path : PyPath} {name : String} :
    path.join name = path ↔
      if (parse name).root = "" then (parse name).parts = [] else parse name = path := by
  rw [join]
  split
  · rw [PyPath.mk.injEq, List.append_right_eq_self]
    exact ⟨fun h => h.2, fun h => ⟨rfl, h⟩⟩
  · rfl

theorem savedPath_parent_iff (outputDir : PyPath) (messageId company date : String) :
    (savedPath outputDir messageId company date).parent = outputDir ↔
    DateStaysIn outputDir date := by
  rw [savedPath_parent, PyPath.join_eq_self]
  rfl

/-- A date without a `/` stays where it is. -/
theorem dateStaysIn_of_notMem {date : String} (h : '/' ∉ date.toList) (outputDir : PyPath) :
    DateStaysIn outputDir date := by
  have hdirectory : directoryPart date.toList = [] := directoryPart_append h []
  rw [DateStaysIn, dateDirectory, hdirectory]
  rfl

/-- Company and date were resolved for a message: the date is one that `extract_date` finds, or a
model has answered with both. -/
def ResolvedFrom (message : NormalizedMessage) (extraction : ReceiptExtraction)
    (es : List Event) : Prop :=
  extractDate message = some extraction.date ∨
    (⟨.extractReceipt (extractionRequest message), .ok extraction⟩ : Event) ∈ es

/-- Every file was written for a company and a date that were resolved before. -/
def WrittenAs (config : ReceiptArchiveConfig) (message : NormalizedMessage) (es : List Event) :
    Prop :=
  ∀ e ∈ es, ∀ path bytes, e.op = .writeBytes path bytes → ∃ extraction,
    ResolvedFrom message extraction es ∧ path =
      (savedPath config.outputDir message.messageId extraction.company extraction.date).str

section Written

variable {A : Allowed} {config : ReceiptArchiveConfig} {message : NormalizedMessage}
  {ts : Option String} {extraction : ReceiptExtraction} {es : List Event} {e : Event}

theorem ResolvedFrom.append (h : ResolvedFrom message extraction es) :
    ResolvedFrom message extraction (es ++ [e]) :=
  h.imp id (List.mem_append_left _)

/-- One more event is written as it should be if it writes nothing, or for what was resolved. -/
theorem WrittenAs.append (h : WrittenAs config message es)
    (he : ∀ path bytes, e.op = .writeBytes path bytes → ∃ extraction,
      ResolvedFrom message extraction (es ++ [e]) ∧ path =
        (savedPath config.outputDir message.messageId extraction.company extraction.date).str) :
    WrittenAs config message (es ++ [e]) := by
  intro x hx path bytes hpath
  rcases List.mem_append.1 hx with hx | hx
  · obtain ⟨extraction, hresolved, heq⟩ := h x hx path bytes hpath
    exact ⟨extraction, hresolved.append, heq⟩
  · rw [List.mem_singleton.1 hx] at hpath
    exact he path bytes hpath

/-- What `resolveReceipt` returns has been resolved. -/
theorem Resolution.resolvedFrom {w w' : World}
    (h : Resolution message ts w (.ok extraction) w') :
    Since w (ResolvedFrom message extraction) w' := by
  cases h with
  | found hes hdb hdate => exact hes.mono fun _ _ => .inl hdate
  | asked hes hdb => exact hes.mono fun _ h => .inr h

/-- A call that writes no file. -/
def Op.WritesNothing (op : Op) : Prop := ∀ path bytes, op ≠ .writeBytes path bytes

theorem resolveReceipt_writesNothing (config : ReceiptArchiveConfig) :
    (resolveReceipt config.components message ts).Only fun op : Op => op.WritesNothing := by
  have hlooks : ∀ op : Op, op.LooksUp → op.WritesNothing := by
    rintro _ h path bytes rfl
    exact h
  refine Prog.Only.bind (Prog.only_perform.2 (hlooks _ trivial)) fun known => ?_
  refine ((extractReceipt_looksUp config message known).mono hlooks).bind fun found => ?_
  cases found with
  | some extraction => trivial
  | none =>
    refine Prog.Only.bind (Prog.only_perform.2 fun _ _ h => by cases h) fun extraction => ?_
    exact Prog.Only.bind (Prog.only_perform.2 fun _ _ h => by cases h) fun _ => trivial

/-- **Every run of `archiveReceipt`** writes what was resolved, and nothing else. -/
theorem archiveReceipt_writtenAs (w : World) :
    (machine A).wp (Since w (WrittenAs config message))
      (archiveReceipt config.components message ts) (fun _ _ => True) w := by
  have hresolve : (machine A).Keeps (Since w (WrittenAs config message))
      (resolveReceipt config.components message ts) := by
    refine keeps_since (fun es e he h => h.append fun path bytes hop => ?_)
      (resolveReceipt_writesNothing config)
    exact absurd hop (he path bytes)
  have hstart : Since w (WrittenAs config message) w :=
    ⟨[], (List.append_nil _).symm, fun e he => by cases he⟩
  rw [archiveReceipt_eq]
  refine wp_bind.2 (wp_mono (fun _ h => h.1) (fun r w₁ hw₁ hres => ?_)
    (wp_and (hresolve w hstart) (resolveReceipt_resolution config w)))
  cases r with
  | error e => exact ⟨hw₁.1, trivial⟩
  | ok extraction =>
    have hrest : (machine A).Keeps
        (Since w fun es => ResolvedFrom message extraction es ∧ WrittenAs config message es)
        (archiveResolved config.components message extraction) := by
      refine keeps_since (fun es e he h => ⟨h.1.append, h.2.append fun path bytes hop => ?_⟩)
        (archiveResolved_only config message extraction)
      exact ⟨extraction, h.1.append, he.writes path bytes hop⟩
    exact wp_mono (fun _ h => h.mono fun _ h => h.2) (fun _ _ _ _ => trivial)
      (hrest w₁ (hres.2.resolvedFrom.and hw₁.1))

end Written

/-- **A receipt is written directly inside the configured directory just when its date does not lead
out of it.** -/
theorem receipt_written_inside_iff (config : ReceiptArchiveConfig) (message : NormalizedMessage)
    (ts : Option String) {p : Proc String} {w w' : World}
    (hrun : (machine anything).Reaches (archiveReceipt config.components message ts) w p w')
    {path : String} {bytes : List UInt8} {reply : Except Exn Unit}
    (hwrite : (⟨.writeBytes path bytes, reply⟩ : Event) ∈ eventsSince w w') :
    ∃ extraction, ResolvedFrom message extraction (eventsSince w w') ∧
      path = (savedPath config.outputDir message.messageId extraction.company extraction.date).str ∧
      ((savedPath config.outputDir message.messageId extraction.company extraction.date).parent =
        config.outputDir ↔ DateStaysIn config.outputDir extraction.date) := by
  have hwritten := (wp_inv (wp_reaches (archiveReceipt_writtenAs w) hrun)).eventsSince
  obtain ⟨extraction, hresolved, hpath⟩ := hwritten _ hwrite path bytes rfl
  exact ⟨extraction, hresolved, hpath, savedPath_parent_iff _ _ _ _⟩

/-- A store in which the sender of a letter is known. -/
def acmeKnown : World := ⟨StateDB.empty.learnKnownSender ⟨"example.org", "Acme", "seed", ""⟩, []⟩

/-- What a quiet day makes of a message from that sender. -/
def afterArchive (message : NormalizedMessage) : World :=
  (Env.quiet.eval (archiveReceipt receiptsOnly.components message none) acmeKnown).2

theorem afterArchive_reaches (message : NormalizedMessage) :
    (machine anything).Reaches (archiveReceipt receiptsOnly.components message none) acmeKnown
      (.done (Env.quiet.eval (archiveReceipt receiptsOnly.components message none) acmeKnown).1)
      (afterArchive message) := Env.quiet_reaches _ _

/-- A receipt from a known sender is written where it should be: its date is the one of the message,
which leads nowhere. -/
theorem receipt_written_inside_dated : ∃ extraction,
    ResolvedFrom datedLetter extraction (eventsSince acmeKnown (afterArchive datedLetter)) ∧
      "/srv/receipts/2026-01-05-acme-m1.pdf" =
        (savedPath receiptsOnly.outputDir "M1" extraction.company extraction.date).str ∧
      (savedPath receiptsOnly.outputDir "M1" extraction.company extraction.date).parent =
        receiptsOnly.outputDir := by
  have hwritten : (⟨.writeBytes "/srv/receipts/2026-01-05-acme-m1.pdf" [], .ok ()⟩ : Event) ∈
      eventsSince acmeKnown (afterArchive datedLetter) := List.mem_of_getElem? (i := 4) rfl
  obtain ⟨extraction, hresolved, hpath, hinside⟩ := receipt_written_inside_iff receiptsOnly
    datedLetter none (afterArchive_reaches datedLetter) hwritten
  have hsender : normalizeSenderDomain datedLetter.fromDomain = "example.org" := by decide +kernel
  have hunasked : extractionCalls "example.org" (eventsSince acmeKnown (afterArchive datedLetter)) =
      0 := by decide +kernel
  have hstated : extractDate datedLetter = some "2026-01-05" := by decide +kernel
  have hplain : '/' ∉ extraction.date.toList := by
    rcases hresolved with hdate | hasked
    · rw [← Option.some.inj (hstated.symm.trans hdate)]
      decide
    · exact absurd (decide_eq_true hsender) (List.countP_eq_zero.1 hunasked _ hasked)
  refine ⟨extraction, hresolved, hpath, hinside.2 ?_⟩
  simp only [dateStaysIn_of_notMem, hplain, not_false_eq_true]

/-- A message whose date leads to another directory. -/
def strayLetter : NormalizedMessage := { letter with headers := [("Date", "../../etc/cron.d/job")] }

/-- A receipt is written to the directory that the sender names. -/
theorem stray_receipt_written_outside :
    (machine anything).Reaches (archiveReceipt receiptsOnly.components strayLetter none) acmeKnown
      (.done (Env.quiet.eval (archiveReceipt receiptsOnly.components strayLetter none) acmeKnown).1)
      (afterArchive strayLetter) ∧
    (⟨.writeBytes "/srv/receipts/../../etc/cron.d/job-acme-m1.pdf" [], .ok ()⟩ : Event) ∈
      eventsSince acmeKnown (afterArchive strayLetter) ∧
    (PyPath.parse "/srv/receipts/../../etc/cron.d/job-acme-m1.pdf").parent ≠
      receiptsOnly.outputDir :=
  ⟨afterArchive_reaches strayLetter, List.mem_of_getElem? (i := 4) rfl, by decide +kernel⟩

/-! ## Two receipts -/

/-- Some run of a program writes the file `path`. -/
def MayWrite (path : String) (p : Proc PyPath) : Prop :=
  ∃ bytes, ¬p.Only (· ≠ Op.writeBytes path bytes)

/-- Whatever the companies and dates, two messages are saved to different files. -/
def NeverSameFile (messageId₁ messageId₂ : String) : Prop :=
  ∀ (outputDir company₁ date₁ company₂ date₂ : String) (pdf₁ pdf₂ : List UInt8) (path : String),
    MayWrite path (savePdf pdf₁ (.parse outputDir) messageId₁ company₁ date₁) →
      ¬MayWrite path (savePdf pdf₂ (.parse outputDir) messageId₂ company₂ date₂)

/-- Neither slug is the other, or ends with a hyphen and the other. -/
structure SlugsApart (messageId₁ messageId₂ : String) : Prop where
  ne : slugify messageId₁ ≠ slugify messageId₂
  left : ¬ '-' :: (slugify messageId₁).toList <:+ (slugify messageId₂).toList
  right : ¬ '-' :: (slugify messageId₂).toList <:+ (slugify messageId₁).toList

/-- `save_pdf` writes to one path. -/
theorem mayWrite_savePdf {path : String} {pdfBytes : List UInt8} {outputDir : PyPath}
    {messageId company date : String} :
    MayWrite path (savePdf pdfBytes outputDir messageId company date) ↔
      path = (savedPath outputDir messageId company date).str := by
  constructor
  · rintro ⟨bytes, h⟩
    by_contra hne
    refine h ((savePdf_only pdfBytes outputDir messageId company date).mono fun op hop => ?_)
    rintro rfl
    exact hne (Op.writeBytes.inj hop).1
  · intro hpath
    rw [hpath]
    exact ⟨pdfBytes, fun h => h.1 rfl⟩

/-- Two texts that both end with a hyphen and a tail of theirs. -/
theorem hyphen_tails {before₁ before₂ tail₁ tail₂ : List Char}
    (h : before₁ ++ '-' :: tail₁ = before₂ ++ '-' :: tail₂) :
    tail₁ = tail₂ ∨ '-' :: tail₁ <:+ tail₂ ∨ '-' :: tail₂ <:+ tail₁ := by
  rcases List.append_eq_append_iff.1 h with ⟨middle, -, h⟩ | ⟨middle, -, h⟩
  · cases middle with
    | nil => exact .inl (List.cons_injective h)
    | cons c middle =>
      rw [List.cons_append, List.cons.injEq] at h
      exact .inr (.inr ⟨middle, h.2.symm⟩)
  · cases middle with
    | nil => exact .inl (List.cons_injective h).symm
    | cons c middle =>
      rw [List.cons_append, List.cons.injEq] at h
      exact .inr (.inl ⟨middle, h.2.symm⟩)

theorem receiptFile_eq (messageId company date : String) : receiptFile messageId company date =
    ((filePart date.toList ++ '-' :: (slugify company).toList) ++
      '-' :: (slugify messageId).toList) ++
      ".pdf".toList := by
  simp [receiptFile]

/-- If one slug ends with a hyphen and the other, the rest of it can be a company. -/
theorem savedPath_collision {messageId₁ messageId₂ : String}
    (h : '-' :: (slugify messageId₁).toList <:+ (slugify messageId₂).toList) (outputDir : PyPath) :
    ∃ company, savedPath outputDir messageId₁ company "2026-01-05-acme" =
      savedPath outputDir messageId₂ "Acme" "2026-01-05" := by
  obtain ⟨before, h⟩ := h
  have hbefore : IsSlug before := (h ▸ isSlug_slugify messageId₂).of_append_hyphen
  refine ⟨String.ofList before, congrArg outputDir.join (String.ext ?_)⟩
  have hacme : slugify "Acme" = "acme" := by decide +kernel
  rw [receiptFilename, receiptFilename, slugify_of_isSlug hbefore, hacme]
  simp [← h]

/-- **Two receipts never overwrite each other** just when their slugs are apart. -/
theorem receipts_never_overwrite_iff (messageId₁ messageId₂ : String) :
    NeverSameFile messageId₁ messageId₂ ↔ SlugsApart messageId₁ messageId₂ := by
  constructor
  · intro h
    have hpaths : ∀ {company₁ date₁ company₂ date₂},
        savedPath (.parse "") messageId₁ company₁ date₁ ≠
        savedPath (.parse "") messageId₂ company₂ date₂ := fun heq =>
      h "" _ _ _ _ [] [] _ (mayWrite_savePdf.2 rfl) (mayWrite_savePdf.2 (congrArg PyPath.str heq))
    refine ⟨fun heq => ?_, fun hleft => ?_, fun hright => ?_⟩
    · refine hpaths (?_ : savedPath _ _ "Acme" "2026-01-05" = savedPath _ _ "Acme" "2026-01-05")
      rw [savedPath, savedPath, receiptFilename, receiptFilename, heq]
    · obtain ⟨company, hcollide⟩ := savedPath_collision hleft (.parse "")
      exact hpaths hcollide
    · obtain ⟨company, hcollide⟩ := savedPath_collision hright (.parse "")
      exact hpaths hcollide.symm
  · intro h outputDir company₁ date₁ company₂ date₂ pdf₁ pdf₂ path h₁ h₂
    have hfile : receiptFile messageId₁ company₁ date₁ = receiptFile messageId₂ company₂ date₂ := by
      rw [← filePart_savedPath outputDir, ← filePart_savedPath outputDir, ← mayWrite_savePdf.1 h₁,
        ← mayWrite_savePdf.1 h₂]
    rw [receiptFile_eq, receiptFile_eq] at hfile
    rcases hyphen_tails (List.append_cancel_right hfile) with heq | hleft | hright
    · exact h.ne (String.ext heq)
    · exact h.left hleft
    · exact h.right hright

/-- Two message ids that differ in the case of their letters are saved to one file. -/
theorem case_differs_same_file : "Mf3a" ≠ "MF3a" ∧ ¬NeverSameFile "Mf3a" "MF3a" := by
  refine ⟨by decide, fun h => ?_⟩
  exact h "/srv/receipts" "Acme" "2026-01-05" "Acme" "2026-01-05" [] [] _ (mayWrite_savePdf.2 rfl)
    (mayWrite_savePdf.2 (by decide +kernel))

end Spork
