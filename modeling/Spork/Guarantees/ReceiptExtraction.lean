import Spork.Runtime
import Spork.Receipts.Paths

/-!
# How a receipt's company and date are found

`core/receipts/extract.py` and the first half of `ArchiveReceiptAugment.augment`.

* `searchDate_eq_some`: what the body's date marker matches, as a leftmost match.
* `extractReceipt_sound_iff`: for which inputs the deterministic path returns a usable receipt or
  declines.
* `Resolution` says once how `resolveReceipt` can end; what it leaves in the store
  (`archiveReceipt_failed_db`) and how often it asks a model (`extraction_calls_le_one_iff`) are
  read off it.
-/

set_option autoImplicit false

namespace Spork

open Effects Machine

/-! ## The date in the body -/

/-- `Invoice date:`, `Payment date:` or `Receipt date:`, letters taken without case. -/
def IsDateMarker (cs : List Char) : Prop :=
  ∃ marker ∈ ["invoice date:", "payment date:", "receipt date:"],
    List.Forall₂ (fun p c => matchesLetter p c = true) marker.toList cs

/-- `_BODY_DATE_PATTERNS` matches at the start of `cs`: a marker, white space, and the rest of the
line on which the next visible character stands. -/
structure DateMatch (cs marker gap date rest : List Char) : Prop where
  text : cs = marker ++ (gap ++ (date ++ rest))
  marker : IsDateMarker marker
  gap : ∀ c ∈ gap, isPySpace c = true
  visible : ∃ c ∈ date.head?, isPySpace c = false
  line : '\n' ∉ date
  ends : ∀ c ∈ rest.head?, c = '\n'

/-- `pattern.search`: the first position at which there is a match. -/
inductive DateSearch : List Char → List Char → List Char → Prop where
  | here {cs marker gap date rest : List Char} (h : DateMatch cs marker gap date rest) :
      DateSearch cs gap date
  | later {c : Char} {cs gap date : List Char}
      (hnone : ∀ marker gap date rest, ¬DateMatch (c :: cs) marker gap date rest)
      (h : DateSearch cs gap date) : DateSearch (c :: cs) gap date

theorem dropLiteral_eq_some : ∀ {literal cs rest : List Char},
    dropLiteral literal cs = some rest ↔
      ∃ text, cs = text ++ rest ∧ List.Forall₂ (fun p c => matchesLetter p c = true) literal text
  | [], cs, rest => by
    simp only [dropLiteral, Option.some_inj]
    refine ⟨fun h => ⟨[], h, .nil⟩, ?_⟩
    rintro ⟨_, h, ⟨⟩⟩
    exact h
  | p :: ps, [], rest => by
    simp only [dropLiteral, reduceCtorEq, false_iff]
    rintro ⟨_, h, ⟨⟩⟩
    cases h
  | p :: ps, c :: cs, rest => by
    rw [dropLiteral]
    split
    · next hc =>
      rw [dropLiteral_eq_some]
      constructor
      · rintro ⟨text, rfl, h⟩
        exact ⟨c :: text, rfl, .cons hc h⟩
      · rintro ⟨_, h, hmatch⟩
        cases hmatch with
        | cons _ htail =>
          cases h
          exact ⟨_, rfl, htail⟩
    · next hc =>
      simp only [reduceCtorEq, false_iff]
      rintro ⟨_, h, hmatch⟩
      cases hmatch with
      | cons hhead _ =>
        cases h
        exact hc hhead

/-- A line is what stands before the next line feed. -/
theorem takeWhile_line {date rest : List Char} (hline : '\n' ∉ date)
    (hends : ∀ c ∈ rest.head?, c = '\n') : (date ++ rest).takeWhile (· != '\n') = date := by
  have hdate : ∀ c ∈ date, (c != '\n') = true := fun c hc =>
    bne_iff_ne.2 fun h => hline (h ▸ hc)
  rw [List.takeWhile_append_of_pos hdate]
  cases rest with
  | nil => rw [List.takeWhile_nil, List.append_nil]
  | cons c rest =>
    rw [hends c rfl, List.takeWhile_cons_of_neg (by decide), List.append_nil]

/-- Behind a marker: white space up to a visible character, and the line that it starts. -/
theorem restAfterSpaces_eq_some {cs date : List Char} :
    restAfterSpaces cs = some date ↔ ∃ gap rest, cs = gap ++ (date ++ rest) ∧
      (∀ c ∈ gap, isPySpace c = true) ∧ (∃ c ∈ date.head?, isPySpace c = false) ∧ '\n' ∉ date ∧
      ∀ c ∈ rest.head?, c = '\n' := by
  constructor
  · intro h
    rw [restAfterSpaces] at h
    cases hdrop : cs.dropWhile isPySpace with
    | nil =>
      rw [hdrop] at h
      cases h
    | cons c visible =>
      rw [hdrop] at h
      have hc : isPySpace c = false := by
        have hhead := List.head?_dropWhile_not isPySpace cs
        rwa [hdrop] at hhead
      have hne : (c != '\n') = true := bne_iff_ne.2 fun hnl => by simp [hnl, isPySpace] at hc
      refine ⟨cs.takeWhile isPySpace, (c :: visible).dropWhile (· != '\n'), ?_,
        fun _ => List.mem_takeWhile_imp, ?_, ?_, ?_⟩
      · rw [← Option.some_inj.1 h, List.takeWhile_append_dropWhile, ← hdrop,
          List.takeWhile_append_dropWhile]
      · rw [← Option.some_inj.1 h, List.takeWhile_cons_of_pos (p := fun c => c != '\n') hne]
        exact ⟨c, rfl, hc⟩
      · rw [← Option.some_inj.1 h]
        exact fun hmem => absurd (List.mem_takeWhile_imp hmem) (by decide)
      · intro d hd
        have hhead := List.head?_dropWhile_not (fun c : Char => c != '\n') (c :: visible)
        rw [Option.mem_def.1 hd] at hhead
        simpa using hhead
  · rintro ⟨gap, rest, rfl, hgap, ⟨c, hc, hvisible⟩, hline, hends⟩
    cases date with
    | nil => cases hc
    | cons d date =>
      cases hc
      rw [restAfterSpaces, List.dropWhile_append_of_pos hgap, List.cons_append,
        List.dropWhile_cons_of_neg (by rw [hvisible]; exact Bool.false_ne_true)]
      exact congrArg some (takeWhile_line hline hends)

theorem IsDateMarker.length {cs : List Char} (h : IsDateMarker cs) : cs.length = 13 := by
  obtain ⟨marker, hmarker, h⟩ := h
  have hlength : marker.toList.length = 13 := by
    have hall : ∀ marker ∈ ["invoice date:", "payment date:", "receipt date:"],
        marker.toList.length = 13 := by decide
    exact hall marker hmarker
  rw [← h.length_eq, hlength]

/-- At one position there is one match at most. -/
theorem DateMatch.unique {cs marker gap date rest marker' gap' date' rest' : List Char}
    (h : DateMatch cs marker gap date rest) (h' : DateMatch cs marker' gap' date' rest') :
    gap = gap' ∧ date = date' := by
  have hlength : marker.length = marker'.length := by rw [h.marker.length, h'.marker.length]
  have htext := (List.append_inj (h.text.symm.trans h'.text) hlength).2
  have hgap : ∀ {gap date : List Char} (rest : List Char), (∀ c ∈ gap, isPySpace c = true) →
      (∃ c ∈ date.head?, isPySpace c = false) →
      (gap ++ (date ++ rest)).takeWhile isPySpace = gap := by
    intro gap date rest hspaces ⟨c, hc, hvisible⟩
    cases date with
    | nil => cases hc
    | cons d date =>
      cases hc
      rw [List.takeWhile_append_of_pos hspaces, List.cons_append,
        List.takeWhile_cons_of_neg (by rw [hvisible]; exact Bool.false_ne_true), List.append_nil]
  have heq : gap = gap' := by
    rw [← hgap rest h.gap h.visible, htext, hgap rest' h'.gap h'.visible]
  have hdate := List.append_cancel_left (heq ▸ htext)
  refine ⟨heq, ?_⟩
  rw [← takeWhile_line h.line h.ends, hdate, takeWhile_line h'.line h'.ends]

/-- The model of `pattern.match` finds the match. -/
theorem dateMarkerAt_eq_some {cs date : List Char} :
    dateMarkerAt cs = some date ↔ ∃ marker gap rest, DateMatch cs marker gap date rest := by
  have hone : ∀ {date literal}, (dropLiteral literal cs).bind restAfterSpaces = some date ↔
      ∃ marker gap rest, List.Forall₂ (fun p c => matchesLetter p c = true) literal marker ∧
        cs = marker ++ (gap ++ (date ++ rest)) ∧ (∀ c ∈ gap, isPySpace c = true) ∧
        (∃ c ∈ date.head?, isPySpace c = false) ∧ '\n' ∉ date ∧ ∀ c ∈ rest.head?, c = '\n' := by
    intro date literal
    simp only [Option.bind_eq_some_iff, dropLiteral_eq_some, restAfterSpaces_eq_some]
    constructor
    · rintro ⟨_, ⟨marker, rfl, hmarker⟩, gap, rest, rfl, h⟩
      exact ⟨marker, gap, rest, hmarker, rfl, h⟩
    · rintro ⟨marker, gap, rest, hmarker, rfl, h⟩
      exact ⟨_, ⟨marker, rfl, hmarker⟩, gap, rest, rfl, h⟩
  have hfound : ∀ {date}, dateMarkerAt cs = some date →
      ∃ marker gap rest, DateMatch cs marker gap date rest := by
    intro date h
    obtain ⟨literal, hliteral, h⟩ := List.exists_of_findSome?_eq_some h
    obtain ⟨marker, gap, rest, hmarker, htext, hgap, hvisible, hline, hends⟩ := hone.1 h
    exact ⟨marker, gap, rest, htext, ⟨literal, hliteral, hmarker⟩, hgap, hvisible, hline, hends⟩
  refine ⟨hfound, ?_⟩
  rintro ⟨marker, gap, rest, h⟩
  cases hat : dateMarkerAt cs with
  | none =>
    obtain ⟨literal, hliteral, hmarker⟩ := h.marker
    have hnone := List.findSome?_eq_none_iff.1 hat literal hliteral
    rw [hone.2 ⟨marker, gap, rest, hmarker, h.text, h.gap, h.visible, h.line, h.ends⟩] at hnone
    cases hnone
  | some date' =>
    obtain ⟨marker', gap', rest', h'⟩ := hfound hat
    rw [(h.unique h').2]

/-- The model of `pattern.search` finds the leftmost match. -/
theorem searchDate_eq_some {date : List Char} : ∀ {cs : List Char},
    searchDate cs = some date ↔ ∃ gap, DateSearch cs gap date
  | [] => by
    rw [searchDate]
    simp only [reduceCtorEq, false_iff]
    rintro ⟨gap, ⟨h⟩⟩
    have hlength := congrArg List.length h.text
    rw [List.length_append, h.marker.length, List.length_nil] at hlength
    omega
  | c :: cs => by
    rw [searchDate]
    cases hat : dateMarkerAt (c :: cs) with
    | some found =>
      obtain ⟨marker, gap, rest, hmatch⟩ := dateMarkerAt_eq_some.1 hat
      constructor
      · intro h
        cases h
        exact ⟨gap, .here hmatch⟩
      · rintro ⟨gap', h⟩
        cases h with
        | here h => rw [(hmatch.unique h).2]
        | later hnone _ => exact absurd hmatch (hnone _ _ _ _)
    | none =>
      have hnone : ∀ marker gap date rest, ¬DateMatch (c :: cs) marker gap date rest := by
        intro marker gap date rest h
        rw [dateMarkerAt_eq_some.2 ⟨marker, gap, rest, h⟩] at hat
        cases hat
      dsimp only
      rw [searchDate_eq_some]
      constructor
      · rintro ⟨gap, h⟩
        exact ⟨gap, .later hnone h⟩
      · rintro ⟨gap, h⟩
        cases h with
        | here h => exact absurd h (hnone _ _ _ _)
        | later _ h => exact ⟨gap, h⟩

/-! ## Declining rather than guessing -/

/-- A curated source that answers from a table. -/
def SenderDomainLookup.table (records : String → Option (Option String)) : SenderDomainLookup :=
  ⟨fun domain => pure (records domain)⟩

/-- Nothing is left after stripping. -/
def Blank (s : String) : Prop := ∀ c ∈ s.toList, isPySpace c = true

instance (s : String) : Decidable (Blank s) := decidable_of_iff _ List.all_eq_true

/-- What `extract_receipt` looks at. -/
structure ReceiptInputs where
  message : NormalizedMessage
  knownSender : Option KnownSender
  /-- The curated records, where there is a `domain_lookup`. -/
  records : Option (String → Option (Option String))

namespace ReceiptInputs

/-- What `extract_receipt` makes of them. -/
def extract (inputs : ReceiptInputs) : Proc (Option ReceiptExtraction) :=
  extractReceipt inputs.message inputs.knownSender (inputs.records.map .table)

/-- The company of the curated record, if it has one that is not the empty text. -/
def curatedCompany (inputs : ReceiptInputs) : Option String :=
  ((inputs.records.bind fun records => records inputs.message.fromDomain).join).filter (· ≠ "")

/-- The company that would be used. -/
def company (inputs : ReceiptInputs) : Option String :=
  inputs.curatedCompany.or (inputs.knownSender.map KnownSender.company)

/-- The `Date` header, if it is not the empty text. -/
def headerDate (inputs : ReceiptInputs) : Option String :=
  (inputs.message.header "Date").filter (· ≠ "")

/-- There is a `Date` header, or a marker with something visible behind it. -/
def HasDate (inputs : ReceiptInputs) : Prop :=
  inputs.headerDate.isSome = true ∨ ∃ gap date, DateSearch inputs.message.bodyText.toList gap date

/-- The company that would be used is nothing but white space. -/
def BlankCompany (inputs : ReceiptInputs) : Prop := ∃ company ∈ inputs.company, Blank company

/-- The date that would be used is nothing but white space, or stands on a later line than its
marker. -/
def MisreadDate (inputs : ReceiptInputs) : Prop :=
  (∃ date ∈ inputs.headerDate, Blank date) ∨
    inputs.headerDate = none ∧
      ∃ gap date, DateSearch inputs.message.bodyText.toList gap date ∧ '\n' ∈ gap

/-- A result has a company and a date, which `build_receipt_pdf` accepts; and where the date comes
from the body, it stands on the line of its marker. -/
structure Usable (inputs : ReceiptInputs) (extraction : ReceiptExtraction) : Prop where
  company : pyStrip extraction.company.toList ≠ []
  date : pyStrip extraction.date.toList ≠ []
  accepted : ∀ attachments,
    buildReceiptPdf inputs.message attachments extraction.company extraction.date =
      call (.renderReceiptPdf inputs.message attachments extraction.company extraction.date)
  line : inputs.headerDate = none →
    ∀ gap date, DateSearch inputs.message.bodyText.toList gap date → '\n' ∉ gap

end ReceiptInputs

theorem pyStrip_eq_nil {cs : List Char} : pyStrip cs = [] ↔ ∀ c ∈ cs, isPySpace c = true := by
  show (cs.dropWhile isPySpace).rdropWhile isPySpace = [] ↔ _
  rw [List.rdropWhile_eq_nil_iff]
  refine ⟨fun h c hc => ?_, fun h c hc => h c (List.dropWhile_subset _ hc)⟩
  rw [← List.takeWhile_append_dropWhile (p := isPySpace) (l := cs), List.mem_append] at hc
  exact hc.elim List.mem_takeWhile_imp (h c)

/-- Stripping twice is stripping once. -/
theorem pyStrip_pyStrip_eq_nil {cs : List Char} : pyStrip (pyStrip cs) = [] ↔ pyStrip cs = [] := by
  refine ⟨fun h => ?_, fun h => by rw [h]; rfl⟩
  by_contra hne
  have hlast : ¬isPySpace ((pyStrip cs).getLast hne) = true :=
    List.rdropWhile_last_not isPySpace (cs.dropWhile isPySpace) hne
  exact hlast (pyStrip_eq_nil.1 h _ (List.getLast_mem hne))

/-- A date found in the body is visible. -/
theorem DateSearch.pyStrip_ne_nil {cs gap date : List Char} (h : DateSearch cs gap date) :
    pyStrip date ≠ [] := by
  induction h with
  | here h =>
    obtain ⟨c, hc, hvisible⟩ := h.visible
    intro hnil
    rw [pyStrip_eq_nil.1 hnil c (List.mem_of_mem_head? hc)] at hvisible
    cases hvisible
  | later _ _ ih => exact ih

namespace ReceiptInputs

variable {inputs : ReceiptInputs}

theorem resolveCompany_table :
    resolveCompany inputs.message.fromDomain inputs.knownSender (inputs.records.map .table) =
      pure inputs.company := by
  unfold resolveCompany
  rw [company, curatedCompany]
  cases inputs.records with
  | none => rfl
  | some records =>
    show (pure (records inputs.message.fromDomain) >>= _ : Proc _) = _
    rw [pure_bind, Option.bind_some]
    rcases records inputs.message.fromDomain with _ | _ | curated
    · rfl
    · rfl
    · simp only [Option.join_some, Option.filter_some, decide_eq_true_eq]
      split
      · rfl
      · rfl

/-- `extract_date`, by what it looks at. -/
theorem extractDate_eq_some {date : String} : extractDate inputs.message = some date ↔
    (∃ header ∈ inputs.headerDate, date = String.ofList (pyStrip header.toList)) ∨
      inputs.headerDate = none ∧ ∃ gap found,
        DateSearch inputs.message.bodyText.toList gap found ∧
          date = String.ofList (pyStrip found) := by
  have hbody : (searchDate inputs.message.bodyText.toList).map
      (fun cs => String.ofList (pyStrip cs)) = some date ↔ ∃ gap found,
        DateSearch inputs.message.bodyText.toList gap found ∧
          date = String.ofList (pyStrip found) := by
    rw [Option.map_eq_some_iff]
    constructor
    · rintro ⟨found, hfound, rfl⟩
      obtain ⟨gap, hsearch⟩ := searchDate_eq_some.1 hfound
      exact ⟨gap, found, hsearch, rfl⟩
    · rintro ⟨gap, found, hsearch, rfl⟩
      exact ⟨found, searchDate_eq_some.2 ⟨gap, hsearch⟩, rfl⟩
  rw [extractDate, headerDate]
  cases inputs.message.header "Date" with
  | none => simpa using hbody
  | some header =>
    by_cases hempty : header = ""
    · simpa [hempty] using hbody
    · have hfilter : (some header).filter (fun s => decide (s ≠ "")) = some header :=
        Option.filter_some_pos (decide_eq_true hempty)
      rw [hfilter]
      simp [hempty, eq_comm]

theorem extract_eq : inputs.extract = pure (inputs.company.bind fun company =>
    (extractDate inputs.message).map fun date => ⟨company, date⟩) := by
  rw [extract, extractReceipt, resolveCompany_table, pure_bind]
  cases inputs.company with
  | none => rfl
  | some company =>
    cases extractDate inputs.message with
    | none => rfl
    | some date => rfl

/-- A result, by what it is made of. -/
theorem extract_eq_some {extraction : ReceiptExtraction} :
    inputs.extract = pure (some extraction) ↔
      inputs.company = some extraction.company ∧
        extractDate inputs.message = some extraction.date := by
  have hpure : ∀ {a b : Option ReceiptExtraction}, (pure a : Proc _) = pure b ↔ a = b := by
    refine fun {a b} => ⟨fun h => ?_, congrArg pure⟩
    simpa [Prog.pure_def] using h
  rw [extract_eq, hpure, Option.bind_eq_some_iff]
  constructor
  · rintro ⟨company, hcompany, hmap⟩
    obtain ⟨date, hdate, rfl⟩ := Option.map_eq_some_iff.1 hmap
    exact ⟨hcompany, hdate⟩
  · rintro ⟨hcompany, hdate⟩
    exact ⟨_, hcompany, by rw [hdate]; rfl⟩

theorem hasDate_iff : inputs.HasDate ↔ ∃ date, extractDate inputs.message = some date := by
  simp only [extractDate_eq_some]
  constructor
  · rintro (h | ⟨gap, found, h⟩)
    · obtain ⟨header, hheader⟩ := Option.isSome_iff_exists.1 h
      exact ⟨_, .inl ⟨header, hheader, rfl⟩⟩
    · cases hheader : inputs.headerDate with
      | some header => exact ⟨_, .inl ⟨header, rfl, rfl⟩⟩
      | none => exact ⟨_, .inr ⟨rfl, gap, found, h, rfl⟩⟩
  · rintro ⟨date, ⟨header, hheader, -⟩ | ⟨-, gap, found, h, -⟩⟩
    · exact .inl (Option.isSome_iff_exists.2 ⟨header, hheader⟩)
    · exact .inr ⟨gap, found, h⟩

/-- A date is unusable just where it is misread. -/
theorem misreadDate_iff {date : String} (hdate : extractDate inputs.message = some date) :
    ¬inputs.MisreadDate ↔ pyStrip date.toList ≠ [] ∧ (inputs.headerDate = none →
      ∀ gap date, DateSearch inputs.message.bodyText.toList gap date → '\n' ∉ gap) := by
  rcases extractDate_eq_some.1 hdate with ⟨header, hheader, rfl⟩ | ⟨hheader, gap, found, h, rfl⟩
  · rw [String.toList_ofList, Ne, pyStrip_pyStrip_eq_nil, pyStrip_eq_nil]
    simp [MisreadDate, Option.mem_def.1 hheader, Blank]
  · rw [String.toList_ofList, Ne, pyStrip_pyStrip_eq_nil]
    simp only [MisreadDate, hheader, Option.mem_def, reduceCtorEq, false_and, exists_false,
      false_or,
      true_and, forall_const, not_exists, not_and, h.pyStrip_ne_nil, not_false_eq_true]

/-- **The deterministic path declines rather than guesses**, but for a blank company or a misread
date. -/
theorem extractReceipt_sound_iff (inputs : ReceiptInputs) :
    (∀ extraction, inputs.extract = pure (some extraction) → inputs.Usable extraction) ↔
      (inputs.BlankCompany → ¬inputs.HasDate) ∧
        (inputs.MisreadDate → inputs.company = none) := by
  constructor
  · intro h
    constructor
    · rintro ⟨company, hcompany, hblank⟩ hdate
      obtain ⟨date, hdate⟩ := hasDate_iff.1 hdate
      exact (h ⟨company, date⟩ (extract_eq_some.2 ⟨hcompany, hdate⟩)).company
        (pyStrip_eq_nil.2 hblank)
    · intro hmisread
      cases hcompany : inputs.company with
      | none => rfl
      | some company =>
        have hdate : inputs.HasDate := by
          rcases hmisread with ⟨date, hdate, -⟩ | ⟨-, gap, date, hsearch, -⟩
          · exact .inl (Option.isSome_iff_exists.2 ⟨date, hdate⟩)
          · exact .inr ⟨gap, date, hsearch⟩
        obtain ⟨date, hdate⟩ := hasDate_iff.1 hdate
        have husable := h ⟨company, date⟩ (extract_eq_some.2 ⟨hcompany, hdate⟩)
        exact absurd hmisread ((misreadDate_iff hdate).2 ⟨husable.date, husable.line⟩)
  · rintro ⟨hblank, hmisread⟩ ⟨company, date⟩ h
    obtain ⟨hcompany, hdate⟩ := extract_eq_some.1 h
    have hvisible : pyStrip company.toList ≠ [] := fun hnil =>
      hblank ⟨company, hcompany, pyStrip_eq_nil.1 hnil⟩ (hasDate_iff.2 ⟨date, hdate⟩)
    obtain ⟨hread, hline⟩ := (misreadDate_iff hdate).1 fun hm => by
      rw [hmisread hm] at hcompany
      cases hcompany
    refine ⟨hvisible, hread, fun attachments => ?_, hline⟩
    rw [buildReceiptPdf, if_neg (by rintro rfl; exact hvisible rfl),
      if_neg (by rintro rfl; exact hread rfl)]

/-- A message with a blank `Date` header, from a sender that is known. -/
def blankDate : ReceiptInputs where
  message := { letter with headers := [("Date", " ")] }
  knownSender := some ⟨"example.org", "Acme", "tier2", ""⟩
  records := none

/-- The blank date of a header is taken for a date. -/
theorem blank_date_not_declined :
    blankDate.extract = pure (some ⟨"Acme", ""⟩) ∧ ¬blankDate.Usable ⟨"Acme", ""⟩ := by
  refine ⟨extract_eq_some.2 ⟨rfl, ?_⟩, fun h => h.date rfl⟩
  exact extractDate_eq_some.2 (.inl ⟨" ", rfl, by decide⟩)

end ReceiptInputs

/-! ## One receipt -/

/-- The request that is made for a message. -/
def extractionRequest (message : NormalizedMessage) : ReceiptExtractionRequest :=
  ⟨message.subject, message.fromAddress, message.fromDomain, message.bodyText⟩

/-- What is learned about the sender of a message. -/
def learnedSender (message : NormalizedMessage) (ts : Option String)
    (extraction : ReceiptExtraction) : KnownSender :=
  ⟨normalizeSenderDomain message.fromDomain, extraction.company, "tier2", ts.getD ""⟩

/-- A call that only looks something up. -/
def Op.LooksUp : Op → Prop
  | .getKnownSender _ | .lookupDomain _ => True
  | _ => False

/-- The events before a model may be asked. -/
def LookedUp (es : List Event) : Prop := ∀ e ∈ es, e.op.LooksUp

/-- How looking for the company and the date of a receipt may end, from `w`. -/
inductive Resolution (message : NormalizedMessage) (ts : Option String) (w : World) :
    Except Exn ReceiptExtraction → World → Prop where
  /-- They were found without a model. -/
  | found {extraction : ReceiptExtraction} {w' : World} (hes : Since w LookedUp w')
      (hdb : w'.db = w.db) (hdate : extractDate message = some extraction.date) :
      Resolution message ts w (.ok extraction) w'
  /-- Something raised, and nothing was learned. -/
  | failed {e : Exn} {w' : World} (hdb : w'.db = w.db) : Resolution message ts w (.error e) w'
  /-- A model was asked, and the sender learned. -/
  | asked {extraction : ReceiptExtraction} {w' : World}
      (hes : Since w (fun es => (⟨.extractReceipt (extractionRequest message), .ok extraction⟩ :
        Event) ∈ es) w')
      (hdb : w'.db = w.db.learnKnownSender (learnedSender message ts extraction)) :
      Resolution message ts w (.ok extraction) w'

section Resolution

variable {A : Allowed} {message : NormalizedMessage} {ts : Option String}

theorem extractReceipt_looksUp (config : ReceiptArchiveConfig) (message : NormalizedMessage)
    (sender : Option KnownSender) :
    (extractReceipt message sender config.components.domainLookup).Only Op.LooksUp := by
  refine Prog.Only.bind ?_ fun company => ?_
  · unfold resolveCompany ReceiptArchiveConfig.components ReceiptArchiveComponents.live
    cases config.domainLookup with
    | false => trivial
    | true =>
      refine Prog.Only.bind (Prog.only_perform.2 trivial) fun record => ?_
      split
      · exact .ite trivial trivial
      · trivial
  · split
    · trivial
    · split <;> trivial

theorem extractReceipt_date (message : NormalizedMessage) (sender : Option KnownSender)
    (lookup : Option SenderDomainLookup) :
    (machine A).ReturnsOnly (fun found => ∀ extraction, found = some extraction →
      extractDate message = some extraction.date) (extractReceipt message sender lookup) := by
  refine Machine.ReturnsOnly.bind_right fun company => ?_
  cases company with
  | none => exact Machine.returnsOnly_pure fun _ h => by cases h
  | some company =>
    cases hdate : extractDate message with
    | none => exact Machine.returnsOnly_pure fun _ h => by cases h
    | some date => exact Machine.returnsOnly_pure fun _ h => by cases h; rfl

/-- Only looked up so far. -/
def OnlyLookedUp (w w' : World) : Prop := w'.db = w.db ∧ Since w LookedUp w'

theorem OnlyLookedUp.step {w w₁ w₂ : World} {op : Op} {r : Except Exn op.Ret}
    (h : OnlyLookedUp w w₁) (hop : op.LooksUp) (hr : Responds A w₁ op r w₂) :
    OnlyLookedUp w w₂ := by
  obtain ⟨hdb, hes⟩ := h
  have hcommit : op.commit w₁.db = w₁.db := by
    cases op with
    | getKnownSender _ | lookupDomain _ => rfl
    | _ => cases hop
  refine ⟨?_, hes.step hr fun es h e he => ?_⟩
  · rcases hr.db with h | h
    · rw [h, hdb]
    · rw [h, hcommit, hdb]
  · rcases List.mem_append.1 he with he | he
    · exact h e he
    · rw [List.mem_singleton.1 he]
      exact hop

/-- **How `resolveReceipt` ends.** -/
theorem resolveReceipt_resolution (config : ReceiptArchiveConfig) (w : World) :
    (machine A).wp (fun _ => True) (resolveReceipt config.components message ts)
      (Resolution message ts w) w := by
  have hkeeps : ∀ {α : Type} {p : Proc α}, p.Only Op.LooksUp →
      (machine A).Keeps (OnlyLookedUp w) p :=
    fun hp => keeps_of_only (fun _ _ _ _ hop h hr => h.step hop hr) hp
  refine Keeps.wp_bind (K := OnlyLookedUp w)
    (hkeeps (p := call (.getKnownSender (normalizeSenderDomain message.fromDomain)))
      (Prog.only_perform.2 trivial)) (fun _ _ => trivial)
    ⟨rfl, [], (List.append_nil _).symm, fun e he => by cases he⟩
    (fun sender w₁ hw₁ => ?_) fun e w' h => .failed h.1
  have hextract := wp_and (hkeeps (extractReceipt_looksUp config message sender) w₁ hw₁)
    (extractReceipt_date (A := A) message sender config.components.domainLookup w₁)
  refine wp_bind.2 (wp_mono (fun _ _ => trivial) (fun r w₂ hI hQ => ?_) hextract)
  obtain ⟨⟨hdb, hes⟩, -⟩ := hI
  cases r with
  | error e => exact ⟨trivial, .failed hdb⟩
  | ok found =>
    cases found with
    | some extraction => exact ⟨trivial, .found hes hdb (hQ.2 _ rfl _ rfl)⟩
    | none =>
      change (machine A).wp _ (call (.extractReceipt (extractionRequest message)) >>= _) _ w₂
      refine wp_call_bind trivial
        (fun extraction db₁ _ hg => ?_) (fun e _ _ => ⟨trivial, .failed hdb⟩)
      rw [(gives_external rfl).1 hg]
      change (machine A).wp _ (call (.learnKnownSender (learnedSender message ts extraction)) >>= _)
        _ _
      refine wp_call_bind trivial
        (fun _ db₂ _ hg => ⟨trivial, .asked ?_ ?_⟩) (fun e _ _ => ⟨trivial, .failed hdb⟩)
      · obtain ⟨before, htrace, -⟩ := hes
        refine ⟨before ++ [⟨.extractReceipt (extractionRequest message), .ok extraction⟩,
          ⟨.learnKnownSender (learnedSender message ts extraction), .ok ()⟩], ?_, by simp⟩
        simp [htrace]
      · rw [World.db_record, ← gives_learnKnownSender.1 hg, World.db_record, hdb]

/-- A call that leaves the store alone, asks no model, and writes no file but `path`. -/
structure Op.Archives (path : String) (op : Op) : Prop where
  onDb : op.onDb = none
  asks : ∀ request, op ≠ .extractReceipt request
  writes : ∀ written bytes, op = .writeBytes written bytes → written = path

/-- What `archiveReceipt` does behind `resolveReceipt`. -/
def archiveResolved (components : ReceiptArchiveComponents) (message : NormalizedMessage)
    (extraction : ReceiptExtraction) : Proc String := do
  components.keywordApplier.applyKeywords message (receiptKeywords extraction)
  let path ← archivePdf components message extraction
  pure (receiptDetail components extraction path)

theorem archiveReceipt_eq (components : ReceiptArchiveComponents) (message : NormalizedMessage)
    (ts : Option String) : archiveReceipt components message ts =
      resolveReceipt components message ts >>= archiveResolved components message := rfl

/-- Behind `resolveReceipt` nothing is learned, and one file is written. -/
theorem archiveResolved_only (config : ReceiptArchiveConfig) (message : NormalizedMessage)
    (extraction : ReceiptExtraction) :
    (archiveResolved config.components message extraction).Only fun op : Op => op.Archives
      (savedPath config.outputDir message.messageId extraction.company extraction.date).str := by
  have hcall : ∀ {op : Op} {path : String}, op.onDb = none →
      (∀ request, op ≠ .extractReceipt request) →
      (∀ written bytes, op ≠ .writeBytes written bytes) →
      (call op).Only fun op : Op => op.Archives path :=
    fun hdb hasks hwrites =>
      Prog.only_perform.2 ⟨hdb, hasks, fun path bytes h => absurd h (hwrites path bytes)⟩
  refine Prog.Only.bind (hcall rfl (fun _ h => by cases h) fun _ _ h => by cases h) fun _ =>
    Prog.Only.bind (.ite trivial ?_) fun _ => trivial
  refine Prog.Only.bind (hcall rfl (fun _ h => by cases h) fun _ _ h => by cases h)
    fun attachments => ?_
  refine Prog.Only.bind (.ite trivial (.ite trivial
    (hcall rfl (fun _ h => by cases h) fun _ _ h => by cases h))) fun pdf => ?_
  refine Prog.Only.bind ((savePdf_only _ _ _ _ _).mono fun op hop => ?_) fun _ => trivial
  subst hop
  refine ⟨rfl, fun _ h => (by cases h), fun written bytes h => ?_⟩
  exact (Op.writeBytes.inj h).1.symm

/-- `archiveReceipt` leaves what `resolveReceipt` leaves in the store. -/
theorem archiveReceipt_resolution (config : ReceiptArchiveConfig) (w : World) :
    (machine A).wp (fun _ => True) (archiveReceipt config.components message ts)
      (fun _ w' => ∃ r w₁, Resolution message ts w r w₁ ∧ w'.db = w₁.db ∧
        w₁.trace <+: w'.trace) w := by
  rw [archiveReceipt_eq]
  refine wp_bind.2 (wp_mono (fun _ _ => trivial) (fun r w₁ _ hres => ?_)
    (resolveReceipt_resolution config w))
  cases r with
  | error e => exact ⟨trivial, _, w₁, hres, rfl, List.prefix_refl _⟩
  | ok extraction =>
    have hkeeps : (machine A).Keeps (fun w' => w'.db = w₁.db ∧ w₁.trace <+: w'.trace)
        (archiveResolved config.components message extraction) := by
      refine keeps_of_only (fun w₂ op r w₃ hop h hr => ⟨?_, ?_⟩)
        (archiveResolved_only config message extraction)
      · rw [← h.1]
        rcases Responds.inv hr with ⟨a, db', -, hg, rfl⟩ | ⟨e, -, -, rfl⟩
        · exact (gives_external hop.onDb).1 hg
        · rfl
      · rw [Responds.trace hr]
        exact h.2.trans (List.prefix_append _ _)
    exact wp_mono (fun _ _ => trivial) (fun _ w' h _ => ⟨_, w₁, hres, h.1, h.2⟩)
      (hkeeps w₁ ⟨rfl, List.prefix_refl _⟩)

end Resolution

/-! ## What a receipt that is not archived leaves behind -/

/-- **A receipt that could not be archived leaves the extraction of this call behind, or nothing.**
If nothing was extracted in this call, nothing is learned. -/
theorem archiveReceipt_failed_db (config : ReceiptArchiveConfig) (message : NormalizedMessage)
    (ts : Option String) {w w' : World} {e : Exn}
    (hrun : (machine anything).Reaches (archiveReceipt config.components message ts) w
      (.done (.error e)) w') :
    w'.db = w.db ∨ ∃ extraction,
      (⟨.extractReceipt (extractionRequest message), .ok extraction⟩ : Event) ∈ eventsSince w w' ∧
        w'.db = w.db.learnKnownSender (learnedSender message ts extraction) := by
  obtain ⟨r, w₁, hres, hdb, after, htrace⟩ :=
    (wp_reaches (archiveReceipt_resolution config w) hrun).2
  cases hres with
  | found hes hdb₁ hdate => exact .inl (hdb.trans hdb₁)
  | failed hdb₁ => exact .inl (hdb.trans hdb₁)
  | asked hes hdb₁ =>
    obtain ⟨es, htrace₁, hasked⟩ := hes
    refine .inr ⟨_, ?_, hdb.trans hdb₁⟩
    rw [eventsSince, ← htrace, htrace₁, List.append_assoc, List.drop_left]
    exact List.mem_append_left _ hasked

/-- A receipt archive, without a curated source. -/
def receiptsOnly : ReceiptArchiveConfig := { outputDir := .parse "/srv/receipts" }

/-- A day on which the disk is full. -/
def Env.fullDisk : Env := fun _ op =>
  match op with
  | .writeBytes _ _ => .error ⟨.other "OSError", "[Errno 28] No space left on device"⟩
  | op => .ok (quietAnswer op)

/-- A message that states when it was sent. -/
def datedLetter : NormalizedMessage := { letter with headers := [("Date", "2026-01-05")] }

theorem Env.fullDisk_lawful : Env.fullDisk.Lawful := by
  intro w op e h
  cases op <;> trivial

/-- What is left when a receipt could not be saved because the disk is full. -/
def afterFullDisk : World :=
  (Env.fullDisk.eval (archiveReceipt receiptsOnly.components datedLetter none) ⟨.empty, []⟩).2

theorem fullDisk_reaches : (machine anything).Reaches
    (archiveReceipt receiptsOnly.components datedLetter none) ⟨.empty, []⟩
    (.done (.error ⟨.receiptArchiveError,
      "could not save receipt PDF to /srv/receipts: [Errno 28] No space left on device"⟩))
    afterFullDisk :=
  Env.reaches Env.fullDisk_lawful (fun _ _ => trivial) _ _

theorem archiveReceipt_failed_db_fullDisk :
    afterFullDisk.db = StateDB.empty ∨ ∃ extraction,
      (⟨.extractReceipt (extractionRequest datedLetter), .ok extraction⟩ : Event) ∈
        eventsSince ⟨.empty, []⟩ afterFullDisk ∧
      afterFullDisk.db = StateDB.empty.learnKnownSender
        (learnedSender datedLetter none extraction) :=
  archiveReceipt_failed_db receiptsOnly datedLetter none fullDisk_reaches

/-- A receipt that could not be saved leaves its sender learned. -/
theorem full_disk_leaves_sender_learned :
    ∃ e w', (machine anything).Reaches (archiveReceipt receiptsOnly.components datedLetter none)
        ⟨.empty, []⟩ (.done (.error e)) w' ∧
      w'.db.knownReceiptSenders ≠ StateDB.empty.knownReceiptSenders := by
  refine ⟨_, _, fullDisk_reaches, fun h => ?_⟩
  have hsender := congrFun h "example.org"
  exact absurd hsender (by decide +kernel)

/-! ## How often a model is asked about a sender -/

/-- How often a model was asked about a sender. -/
def extractionCalls (domain : String) (es : List Event) : Nat :=
  es.countP fun e =>
    match e.op with
    | .extractReceipt request => normalizeSenderDomain request.fromDomain = domain
    | _ => false

/-- The messages of a sender. -/
def messagesOf (domain : String) (messages : List NormalizedMessage) : List NormalizedMessage :=
  messages.filter fun message => normalizeSenderDomain message.fromDomain = domain

/-- How often a model is asked about the messages of one sender, given whether the sender is known:
for the first message of an unknown sender, and for every message without a date. -/
def asksFor : Bool → List NormalizedMessage → Nat
  | _, [] => 0
  | known, message :: messages =>
    (if known && (extractDate message).isSome then 0 else 1) + asksFor true messages

/-- Of a known sender's messages at most one has no date; of an unknown sender's, at most the
first. -/
def DatedEnough (known : Bool) (messages : List NormalizedMessage) : Prop :=
  if known then (messages.countP fun message => (extractDate message).isNone) ≤ 1
  else ∀ message ∈ messages.tail, (extractDate message).isSome = true

instance (known : Bool) (messages : List NormalizedMessage) :
    Decidable (DatedEnough known messages) :=
  match known with
  | true => inferInstanceAs (Decidable (_ ≤ 1))
  | false => inferInstanceAs (Decidable (∀ _ ∈ _, _ = true))

theorem asksFor_known : ∀ messages : List NormalizedMessage,
    asksFor true messages = messages.countP fun message => (extractDate message).isNone
  | [] => rfl
  | message :: messages => by
    rw [asksFor, asksFor_known messages, List.countP_cons]
    cases extractDate message with
    | none => simp [Nat.add_comm]
    | some date => simp

theorem asksFor_le_one {known : Bool} {messages : List NormalizedMessage} :
    asksFor known messages ≤ 1 ↔ DatedEnough known messages := by
  cases known with
  | true => rw [asksFor_known, DatedEnough, if_pos rfl]
  | false =>
    rw [DatedEnough, if_neg Bool.false_ne_true]
    cases messages with
    | nil => simp [asksFor]
    | cons message messages =>
      rw [asksFor, asksFor_known, List.tail_cons]
      have hcount : 1 + (messages.countP fun message => (extractDate message).isNone) ≤ 1 ↔
          (messages.countP fun message => (extractDate message).isNone) = 0 := by omega
      simp [hcount, List.countP_eq_zero, Option.isSome_iff_ne_none]

section Asks

variable {message : NormalizedMessage} {ts : Option String} {config : ReceiptArchiveConfig}

/-- Without a curated source, `resolveReceipt` needs a learned company and a date. -/
theorem resolveReceipt_uncurated (hcurated : config.domainLookup = false) :
    resolveReceipt config.components message ts = (do
      let known ← call (.getKnownSender (normalizeSenderDomain message.fromDomain))
      if known.isSome && (extractDate message).isSome then
        pure ⟨(known.map KnownSender.company).getD "", (extractDate message).getD ""⟩
      else do
        let extraction ← call (.extractReceipt (extractionRequest message))
        call (.learnKnownSender (learnedSender message ts extraction))
        pure extraction) := by
  refine bind_congr fun known => ?_
  have hlookup : config.components.domainLookup = none := by
    simp [ReceiptArchiveConfig.components, ReceiptArchiveComponents.live, hcurated]
  rw [hlookup]
  cases known with
  | none => rfl
  | some sender =>
    rw [extractReceipt]
    cases extractDate message with
    | none => rfl
    | some date => rfl

theorem extractionCalls_append (domain : String) (es fs : List Event) :
    extractionCalls domain (es ++ fs) = extractionCalls domain es + extractionCalls domain fs :=
  List.countP_append

theorem Op.Archives.extractionCalls {op : Op} {path : String} (h : op.Archives path)
    (domain : String) (r : Except Exn op.Ret) : extractionCalls domain [⟨op, r⟩] = 0 := by
  refine List.countP_eq_zero.2 fun e he => ?_
  rw [List.mem_singleton.1 he]
  cases op with
  | extractReceipt request => exact absurd rfl (h.asks request)
  | _ => exact Bool.false_ne_true

/-- How often one message makes a model be asked about `domain`. -/
def asksOnce (domain : String) (known : Bool) (message : NormalizedMessage) : Nat :=
  if normalizeSenderDomain message.fromDomain = domain then asksFor known [message] else 0

/-- What one message does to what is asked and known about `domain`. -/
def AskedOnce (domain : String) (message : NormalizedMessage) (w w' : World) : Prop :=
  Since w (fun es => extractionCalls domain es =
      asksOnce domain (w.db.getKnownSender domain).isSome message) w' ∧
    (w'.db.getKnownSender domain).isSome = ((w.db.getKnownSender domain).isSome ||
      decide (normalizeSenderDomain message.fromDomain = domain))

theorem not_noRaise_error {op : Op} {e : Exn} : ¬noRaise op (.error e) := by
  rintro ⟨_, h⟩
  cases h

theorem resolveReceipt_asks (hcurated : config.domainLookup = false) (domain : String) (w : World) :
    (machine noRaise).wp (fun _ => True) (resolveReceipt config.components message ts)
      (fun _ w' => AskedOnce domain message w w') w := by
  rw [resolveReceipt_uncurated hcurated]
  refine wp_call_bind trivial (fun known db' _ hg => ?_) fun e h => absurd h not_noRaise_error
  obtain ⟨rfl, rfl⟩ := gives_getKnownSender.1 hg
  split
  · next h =>
    rw [Bool.and_eq_true] at h
    refine ⟨trivial, ⟨_, rfl, ?_⟩, ?_⟩
    · rw [asksOnce]
      split
      · next hd =>
        subst hd
        simp [asksFor, extractionCalls, h.1, h.2]
      · rfl
    · by_cases hd : normalizeSenderDomain message.fromDomain = domain
      · subst hd
        simp [h.1]
      · simp [hd]
  · next h =>
    refine wp_call_bind trivial (fun extraction db' _ hg => ?_) fun e h =>
      absurd h not_noRaise_error
    rw [(gives_external rfl).1 hg]
    refine wp_call_bind trivial (fun _ db' _ hg => ⟨trivial, ?_, ?_⟩)
      fun e h => absurd h not_noRaise_error
    · refine ⟨_, by simp only [World.trace_record, List.append_assoc]; rfl, ?_⟩
      rw [asksOnce]
      split
      · next hd =>
        subst hd
        simp [asksFor, extractionCalls, extractionRequest, h]
      · next hd => simp [extractionCalls, extractionRequest, hd]
    · rw [World.db_record, ← gives_learnKnownSender.1 hg,
        StateDB.getKnownSender_learnKnownSender]
      by_cases hd : normalizeSenderDomain message.fromDomain = domain
      · subst hd
        simp [learnedSender]
      · have hother : domain ≠ (learnedSender message ts extraction).fromDomain := Ne.symm hd
        rw [if_neg hother, decide_eq_false hd, Bool.or_false]
        rfl

/-- **One message**, when nothing raises. -/
theorem archiveReceipt_asks (hcurated : config.domainLookup = false) (domain : String) (w : World) :
    (machine noRaise).wp (fun _ => True) (archiveReceipt config.components message ts)
      (fun _ w' => AskedOnce domain message w w') w := by
  rw [archiveReceipt_eq]
  refine wp_bind.2 (wp_mono (fun _ _ => trivial) (fun r w₁ _ hasked => ?_)
    (resolveReceipt_asks hcurated domain w))
  cases r with
  | error e => exact ⟨trivial, hasked⟩
  | ok extraction =>
    have hkeeps : (machine noRaise).Keeps (AskedOnce domain message w)
        (archiveResolved config.components message extraction) := by
      refine keeps_of_only (fun w₂ op r w₃ hop h hr => ⟨?_, ?_⟩)
        (archiveResolved_only config message extraction)
      · refine h.1.step hr fun es hes => ?_
        rw [extractionCalls_append, hes, hop.extractionCalls, Nat.add_zero]
      · rw [← h.2]
        rcases Responds.inv hr with ⟨a, db', -, hg, rfl⟩ | ⟨e, -, -, rfl⟩
        · rw [World.db_record, (gives_external hop.onDb).1 hg]
        · rfl
    exact wp_mono (fun _ _ => trivial) (fun _ w' h _ => h) (hkeeps w₁ hasked)

/-- Messages routed to `ArchiveReceiptAugment` one after another, over one store. -/
abbrev ArchiveRuns (config : ReceiptArchiveConfig) : List (NormalizedMessage × Option String) →
    World → World → Prop :=
  Machine.Sequence (machine noRaise) fun run => archiveReceipt config.components run.1 run.2

theorem asksFor_messagesOf_cons (domain : String) (known : Bool) (message : NormalizedMessage)
    (messages : List NormalizedMessage) :
    asksFor known (messagesOf domain (message :: messages)) = asksOnce domain known message +
      asksFor (known || decide (normalizeSenderDomain message.fromDomain = domain))
        (messagesOf domain messages) := by
  rw [messagesOf, List.filter_cons, asksOnce]
  by_cases hd : normalizeSenderDomain message.fromDomain = domain
  · simp [hd, asksFor, messagesOf]
  · simp [hd, messagesOf]

/-- How often a model is asked about a sender over a run. -/
theorem ArchiveRuns.calls (hcurated : config.domainLookup = false) (domain : String)
    {runs : List (NormalizedMessage × Option String)} {w w' : World}
    (h : ArchiveRuns config runs w w') :
    Since w (fun es => extractionCalls domain es = asksFor (w.db.getKnownSender domain).isSome
      (messagesOf domain (runs.map Prod.fst))) w' := by
  induction h with
  | nil => exact ⟨[], (List.append_nil _).symm, rfl⟩
  | cons hr _ ih =>
    obtain ⟨⟨es, htrace, hes⟩, hknown⟩ := (wp_reaches (archiveReceipt_asks hcurated domain _) hr).2
    obtain ⟨fs, htrace', hfs⟩ := ih
    refine ⟨es ++ fs, by rw [htrace', htrace, List.append_assoc], ?_⟩
    show extractionCalls domain (es ++ fs) = _
    rw [extractionCalls_append, hes, hfs, hknown, List.map_cons, asksFor_messagesOf_cons]

/-- **A sender costs one extraction at most**, as far as its messages are dated. -/
theorem extraction_calls_le_one_iff (config : ReceiptArchiveConfig)
    (hcurated : config.domainLookup = false) (domain : String)
    {runs : List (NormalizedMessage × Option String)} {w w' : World}
    (hrun : ArchiveRuns config runs w w') :
    extractionCalls domain (eventsSince w w') ≤ 1 ↔
      DatedEnough (w.db.getKnownSender domain).isSome (messagesOf domain (runs.map Prod.fst)) := by
  rw [(hrun.calls hcurated domain).eventsSince, asksFor_le_one]

/-- What a quiet day makes of messages that are routed to `ArchiveReceiptAugment`. -/
def quietArchive (config : ReceiptArchiveConfig) (runs : List (NormalizedMessage × Option String))
    (w : World) : World :=
  runs.foldl (fun w run => (Env.quiet.eval (archiveReceipt config.components run.1 run.2) w).2) w

theorem archiveRuns_quiet (config : ReceiptArchiveConfig) :
    ∀ (runs : List (NormalizedMessage × Option String)) (w : World),
      ArchiveRuns config runs w (quietArchive config runs w)
  | [], _ => .nil
  | run :: runs, w => by
    have hfits : Env.quiet.Fits noRaise (archiveReceipt config.components run.1 run.2) w := by
      refine Env.fits_of_only (fun w op hop => ?_) (archiveReceipt_only config.wired run.1 run.2)
      have hok : (Env.quiet.answer w op).1.isOk = true :=
        Env.answer_isOk rfl fun date i o h => by
          subst h
          exact hop.elim
      cases h : (Env.quiet.answer w op).1 with
      | ok a => exact ⟨a, rfl⟩
      | error e =>
        rw [h] at hok
        cases hok
    exact .cons (hfits.reaches Env.quiet_lawful) (archiveRuns_quiet config runs _)

theorem extraction_calls_le_one_dated :
    extractionCalls "example.org" (eventsSince ⟨.empty, []⟩
      (quietArchive receiptsOnly [(datedLetter, none), (datedLetter, none)] ⟨.empty, []⟩)) ≤ 1 :=
  (extraction_calls_le_one_iff receiptsOnly rfl "example.org" (archiveRuns_quiet _ _ _)).2
    (by decide +kernel)

/-- Two messages of one sender without a date cost two extractions. -/
theorem undated_sender_asked_twice :
    ArchiveRuns receiptsOnly [(letter, none), (letter, none)] ⟨.empty, []⟩
      (quietArchive receiptsOnly [(letter, none), (letter, none)] ⟨.empty, []⟩) ∧
    extractionCalls "example.org" (eventsSince ⟨.empty, []⟩
      (quietArchive receiptsOnly [(letter, none), (letter, none)] ⟨.empty, []⟩)) = 2 :=
  ⟨archiveRuns_quiet _ _ _, by decide +kernel⟩

end Asks

end Spork
