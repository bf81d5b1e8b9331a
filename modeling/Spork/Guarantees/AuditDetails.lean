import Spork.JsonText
import Spork.Runtime

/-!
# What the audit details say

Every audit detail is meant to be a JSON object whose members say what happened.

* What `json.dumps` writes is read back as it was (`jsonObject_reports`), whatever the texts are.
* The details that are put together by string formatting are read back if the category is plain: no
  quote, no backslash and no control character (`Tier2.actedDetail_reports`).
* `auditDetails_told`: in every run, each detail that is written reports what that run decided.
-/

set_option autoImplicit false

namespace Spork

open Effects Machine JsonReader

/-! ## What `json.dumps` writes -/

/-- **Every text survives.** -/
theorem readsAs_jsonString (s : String) :
    ReadsAs (jsonString s).toList (.string (points s)) := by
  rw [jsonString_toList]
  exact (quotedAs_jsonChars s).readsAs

/-- An optional text, as a value. -/
def optValue : Option String → Value
  | none => .null
  | some s => .string (points s)

theorem readsAs_jsonOptString : ∀ s : Option String, ReadsAs (jsonOptString s).toList (optValue s)
  | none => readsAs_null
  | some s => readsAs_jsonString s

theorem readsAs_jsonBool (b : Bool) : ReadsAs (jsonBool b).toList (.bool b) := readsAs_bool b

/-- A member as `json.dumps` writes it: its key, the text of its value, and that value. -/
structure Dumped where
  key : String
  text : String
  value : Value
  reads : ReadsAs text.toList value

/-- A text member. -/
def Dumped.string (key text : String) : Dumped where
  key := key
  text := jsonString text
  value := .string (points text)
  reads := readsAs_jsonString text

/-- The member in the object. -/
def Dumped.entry (m : Dumped) : Entry where
  rawKey := m.key.toList.flatMap jsonChar
  key := points m.key
  text := m.text.toList
  value := m.value
  quoted := quotedAs_jsonChars m.key
  reads := m.reads

theorem Dumped.entry_written (m : Dumped) :
    m.entry.written = (jsonString m.key ++ ": " ++ m.text).toList := by
  have hcolon : ": ".toList = [':', ' '] := rfl
  rw [String.toList_append, String.toList_append, jsonString_toList, hcolon]
  simp only [Entry.written, Dumped.entry, List.cons_append, List.append_assoc, List.nil_append]

/-- A text member that is put between quotes as it is. -/
structure Plainly where
  key : String
  text : String
  key_plain : ∀ c ∈ key.toList, Plain c
  text_plain : ∀ c ∈ text.toList, Plain c

/-- The member in the object. -/
def Plainly.entry (m : Plainly) : Entry where
  rawKey := m.key.toList
  key := points m.key
  text := '"' :: (m.text.toList ++ ['"'])
  value := .string (points m.text)
  quoted := quotedAs_plain m.key_plain
  reads := (quotedAs_plain m.text_plain).readsAs

theorem Plainly.entry_written (m : Plainly) : m.entry.written
    = '"' :: (m.key.toList ++ '"' :: ':' :: ' ' :: '"' :: (m.text.toList ++ ['"'])) := rfl

/-! ## What the details report -/

/-- The detail is a JSON object with these texts under these keys. -/
def Reports (detail : String) (facts : List (String × String)) : Prop :=
  ∃ ms, loads detail.toList = some (.object ms) ∧
    ∀ fact ∈ facts, member ms fact.1 = some (.string (points fact.2))

theorem lookup_points (key : String) : ∀ ms : List (String × Value),
    (ms.map fun m => (points m.1, m.2)).lookup (points key) = ms.lookup key
  | [] => rfl
  | (k, v) :: ms => by
    have hbeq : (points key == points k) = (key == k) := by
      rw [Bool.eq_iff_iff, beq_iff_eq, beq_iff_eq, points_inj]
    rw [List.map_cons, List.lookup_cons, List.lookup_cons, hbeq, lookup_points key ms]

/-- The members of an object, by their names. -/
theorem reports_of_entries {detail : String} (entries : List Entry) {ms : List (String × Value)}
    (hne : entries ≠ [])
    (htext : detail.toList
      = '\x7b' :: ([',', ' '].intercalate (entries.map Entry.written) ++ ['\x7d']))
    (hentries : (entries.map fun entry => (entry.key, entry.value))
      = ms.map fun m => (points m.1, m.2)) {facts : List (String × String)}
    (hfacts : ∀ fact ∈ facts, ms.reverse.lookup fact.1 = some (.string (points fact.2))) :
    Reports detail facts := by
  refine ⟨_, by rw [htext]; exact loads_entries hne, fun fact hm => ?_⟩
  rw [hentries, member, ← List.map_reverse, lookup_points]
  exact hfacts fact hm

/-- What `json.dumps` writes is read back as it was. -/
theorem jsonObject_reports (members : List Dumped) (hne : members ≠ [])
    {facts : List (String × String)} (hfacts : ∀ fact ∈ facts,
      (members.map fun m => (m.key, m.value)).reverse.lookup fact.1
        = some (.string (points fact.2))) :
    Reports (jsonObject (members.map fun m => (m.key, m.text))) facts := by
  have hwritten : (members.map fun m => (m.key, m.text)).map
      (fun m => (jsonString m.1 ++ ": " ++ m.2).toList)
        = (members.map Dumped.entry).map Entry.written := by
    rw [List.map_map, List.map_map]
    exact List.map_congr_left fun m _ => m.entry_written.symm
  refine reports_of_entries (members.map Dumped.entry)
    (fun h => hne (List.map_eq_nil_iff.1 h)) ?_ ?_ hfacts
  · rw [← hwritten, jsonObject, String.toList_append, String.toList_append,
      String.toList_intercalate, List.map_map]
    rfl
  · rw [List.map_map, List.map_map]
    rfl

theorem quarantineDetail_reports (e : Exn) :
    Reports (quarantineDetail e) [("error_type", e.cls.name), ("reason", e.message)] := by
  refine jsonObject_reports [.string "error_type" e.cls.name, .string "reason" e.message]
    (List.cons_ne_nil _ _) fun fact hm => ?_
  simp only [List.mem_cons, List.not_mem_nil, or_false] at hm
  rcases hm with rfl | rfl <;> simp [List.lookup_cons, Dumped.string]

theorem receiptDetail_reports (components : ReceiptArchiveComponents)
    (extraction : ReceiptExtraction) (path : Option PyPath) :
    Reports (receiptDetail components extraction path)
      [("company", extraction.company), ("date", extraction.date)] := by
  refine jsonObject_reports [.string "company" extraction.company,
    .string "date" extraction.date,
    ⟨"path", jsonOptString (path.map PyPath.str), optValue (path.map PyPath.str),
      readsAs_jsonOptString _⟩,
    ⟨"dry_run", jsonBool components.dryRun, .bool components.dryRun, readsAs_jsonBool _⟩]
    (List.cons_ne_nil _ _) fun fact hm => ?_
  simp only [List.mem_cons, List.not_mem_nil, or_false] at hm
  rcases hm with rfl | rfl <;> simp [List.lookup_cons, Dumped.string]

/-! ### The details that are put together by hand -/

/-- What is read back of a text that is put together from plain members. -/
theorem plainMembers_report {detail : String} (members : List Plainly) (hne : members ≠ [])
    (htext : detail.toList = '\x7b' :: ([',', ' '].intercalate
      (members.map fun m => m.entry.written) ++ ['\x7d']))
    {facts : List (String × String)} (hfacts : ∀ fact ∈ facts,
      (members.map fun m => (m.key, Value.string (points m.text))).reverse.lookup fact.1
        = some (.string (points fact.2))) :
    Reports detail facts := by
  refine reports_of_entries (members.map Plainly.entry)
    (fun h => hne (List.map_eq_nil_iff.1 h)) ?_ ?_ hfacts
  · rw [htext, List.map_map]
    rfl
  · rw [List.map_map, List.map_map]
    rfl

theorem plain_actionType (type : ActionType) : ∀ c ∈ type.value.toList, Plain c := by
  cases type <;> exact plain_of_all (by decide)

theorem plain_bandText (band : Option ConfidenceBand) :
    ∀ c ∈ (Tier2.bandText band).toList, Plain c := by
  rcases band with _ | _ | _ | _ <;> exact plain_of_all (by decide)

theorem plain_keys : (∀ c ∈ "action_type".toList, Plain c) ∧
    (∀ c ∈ "category".toList, Plain c) ∧ ∀ c ∈ "band".toList, Plain c :=
  ⟨plain_of_all (by decide), plain_of_all (by decide), plain_of_all (by decide)⟩

/-- `"action_type": "..."` -/
def Plainly.actionType (type : ActionType) : Plainly :=
  ⟨"action_type", type.value, plain_keys.1, plain_actionType type⟩

/-- `"category": "..."` -/
def Plainly.category (category : String) (h : ∀ c ∈ category.toList, Plain c) : Plainly :=
  ⟨"category", category, plain_keys.2.1, h⟩

/-- `"band": "..."` -/
def Plainly.band (band : Option ConfidenceBand) : Plainly :=
  ⟨"band", Tier2.bandText band, plain_keys.2.2, plain_bandText band⟩

theorem Tier1.actionDetail_reports (type : ActionType) :
    Reports (actionDetail type) [("action_type", type.value)] := by
  refine plainMembers_report [.actionType type] (List.cons_ne_nil _ _) ?_ ?_
  · have hopen : "\x7b\"action_type\": \"".toList
        = '\x7b' :: '"' :: ("action_type".toList ++ ['"', ':', ' ', '"']) := rfl
    have hclose : "\"\x7d".toList = ['"', '\x7d'] := rfl
    unfold actionDetail
    simp only [String.toList_append, hopen, hclose, List.map_cons, List.map_nil,
      Plainly.entry_written, Plainly.actionType, List.intercalate_singleton, List.cons_append,
      List.append_assoc, List.nil_append]
  · simp [Plainly.actionType]

theorem Tier2.actedDetail_reports {verdict : Verdict} (band : Option ConfidenceBand)
    (h : ∀ c ∈ verdict.category.toList, Plain c) :
    Reports (actedDetail verdict band) [("action_type", verdict.suggestedAction.type.value),
      ("category", verdict.category), ("band", bandText band)] := by
  refine plainMembers_report [.actionType verdict.suggestedAction.type,
    .category verdict.category h, .band band] (List.cons_ne_nil _ _) ?_ ?_
  · have hopen : "\x7b\"action_type\": \"".toList
        = '\x7b' :: '"' :: ("action_type".toList ++ ['"', ':', ' ', '"']) := rfl
    have hcategory : "\", \"category\": \"".toList
        = '"' :: ',' :: ' ' :: '"' :: ("category".toList ++ ['"', ':', ' ', '"']) := rfl
    have hband : "\", \"band\": \"".toList
        = '"' :: ',' :: ' ' :: '"' :: ("band".toList ++ ['"', ':', ' ', '"']) := rfl
    have hclose : "\"\x7d".toList = ['"', '\x7d'] := rfl
    unfold actedDetail
    simp only [String.toList_append, hopen, hcategory, hband, hclose, List.map_cons, List.map_nil,
      Plainly.entry_written, Plainly.actionType, Plainly.category, Plainly.band,
      List.intercalate_cons_cons, List.intercalate_singleton, List.cons_append, List.append_assoc,
      List.nil_append]
  · simp [Plainly.actionType, Plainly.category, Plainly.band, List.lookup_cons]

theorem Tier2.alertOnlyDetail_reports {verdict : Verdict} (band : Option ConfidenceBand)
    (h : ∀ c ∈ verdict.category.toList, Plain c) :
    Reports (alertOnlyDetail verdict band)
      [("category", verdict.category), ("band", bandText band)] := by
  refine plainMembers_report [.category verdict.category h, .band band]
    (List.cons_ne_nil _ _) ?_ ?_
  · have hopen : "\x7b\"category\": \"".toList
        = '\x7b' :: '"' :: ("category".toList ++ ['"', ':', ' ', '"']) := rfl
    have hband : "\", \"band\": \"".toList
        = '"' :: ',' :: ' ' :: '"' :: ("band".toList ++ ['"', ':', ' ', '"']) := rfl
    have hclose : "\"\x7d".toList = ['"', '\x7d'] := rfl
    unfold alertOnlyDetail
    simp only [String.toList_append, hopen, hband, hclose, List.map_cons, List.map_nil,
      Plainly.entry_written, Plainly.category, Plainly.band, List.intercalate_cons_cons,
      List.intercalate_singleton, List.cons_append, List.append_assoc, List.nil_append]
  · simp [Plainly.category, Plainly.band, List.lookup_cons]

/-! ## What a run decided -/

/-- In a run from `w₀` to `w`, the part `p` was run to its end and came back with `r`. -/
def Ended {α : Type} (A : Allowed) (p : Proc α) (r : Except Exn α) (w₀ w : World) : Prop :=
  ∃ w₁ w₂, w₀.trace <+: w₁.trace ∧ (machine A).Reaches p w₁ (.done r) w₂ ∧ w₂.trace <+: w.trace

/-- The model answered in the run, and its verdict was accepted with this band. -/
def Accepted (A : Allowed) (deps : EscalateDeps) (message : NormalizedMessage) (w₀ w : World)
    (verdict : Verdict) (band : ConfidenceBand) : Prop :=
  ∃ input request result, input.message = message ∧
    Ended A (deps.tier2.llmClient.getVerdict request) (.ok result) w₀ w ∧
    Tier2.accept deps.tier2 input result.verdict = .ok (verdict, band)

/-- What a run from `w₀` to `w` decided about a message: the event that stands for it in the log,
and the values that the event is about, under the names that details have for them. -/
inductive Decided (A : Allowed) (deps : MessageDeps) (message : NormalizedMessage)
    (rules : List Rule) (w₀ w : World) : String → List (String × String) → Prop where
  | action {verdict : RuleVerdict}
      (h : Ended A (evaluate message rules deps.tier1.defaultUnmatchedAction deps.tier1.classifier)
        (.ok verdict) w₀ w) :
      Decided A deps message rules w₀ w "action_applied"
        [("action_type", verdict.action.type.value)]
  | receipt {components : ReceiptArchiveComponents} {ts : Option String}
      {extraction : ReceiptExtraction} (hc : deps.tier1.receiptArchive = some components)
      (h : Ended A (resolveReceipt components message ts) (.ok extraction) w₀ w) :
      Decided A deps message rules w₀ w "receipt_archived"
        [("company", extraction.company), ("date", extraction.date)]
  | acted {verdict : Verdict} {band : ConfidenceBand} (hband : band ≠ .alertOnly)
      (h : Accepted A deps.escalation message w₀ w verdict band) :
      Decided A deps message rules w₀ w "tier2_action_applied"
        [("action_type", verdict.suggestedAction.type.value), ("category", verdict.category),
          ("band", band.value)]
  | alertOnly {verdict : Verdict}
      (h : Accepted A deps.escalation message w₀ w verdict .alertOnly) :
      Decided A deps message rules w₀ w "tier2_alert_only_no_action"
        [("category", verdict.category), ("band", ConfidenceBand.alertOnly.value)]
  | quarantined {e : Exn}
      (h : Ended A (escalateMessage deps.escalation message) (.error e) w₀ w) :
      Decided A deps message rules w₀ w "tier2_quarantined"
        [("error_type", e.cls.name), ("reason", e.message)]

/-- The category among the facts, if there is one, can be put between quotes as it is. -/
def PlainCategory (facts : List (String × String)) : Prop :=
  ∀ category, ("category", category) ∈ facts → ∀ c ∈ category.toList, Plain c

section Runs

variable {A : Allowed} {α : Type} {w₀ w w' : World}

theorem trace_of_reaches {p p' : Proc α} (h : (machine A).Reaches p w p' w') :
    w.trace <+: w'.trace := by
  have hkeeps : (machine A).Keeps (fun w'' => w.trace <+: w''.trace) p :=
    keeps_of_only (C := fun _ => True) (fun _ _ _ _ _ hw hr =>
      hw.trans (by rw [Responds.trace hr]; exact List.prefix_append _ _)) (Prog.only_true p)
  exact hkeeps.reaches (List.prefix_refl _) h

theorem Ended.mono {p : Proc α} {r : Except Exn α} (h : Ended A p r w₀ w)
    (hw : w.trace <+: w'.trace) : Ended A p r w₀ w' := by
  obtain ⟨w₁, w₂, hstart, hrun, hend⟩ := h
  exact ⟨w₁, w₂, hstart, hrun, hend.trans hw⟩

variable {deps : MessageDeps} {message : NormalizedMessage} {rules : List Rule}

theorem Accepted.mono {verdict : Verdict} {band : ConfidenceBand}
    (h : Accepted A deps.escalation message w₀ w verdict band) (hw : w.trace <+: w'.trace) :
    Accepted A deps.escalation message w₀ w' verdict band := by
  obtain ⟨input, request, result, hmessage, hended, haccept⟩ := h
  exact ⟨input, request, result, hmessage, hended.mono hw, haccept⟩

theorem Decided.mono {event : String} {facts : List (String × String)}
    (h : Decided A deps message rules w₀ w event facts) (hw : w.trace <+: w'.trace) :
    Decided A deps message rules w₀ w' event facts := by
  cases h with
  | action h => exact .action (h.mono hw)
  | receipt hc h => exact .receipt hc (h.mono hw)
  | acted hband h => exact .acted hband (h.mono hw)
  | alertOnly h => exact .alertOnly (h.mono hw)
  | quarantined h => exact .quarantined (h.mono hw)

/-- The detail says what was decided up to `w`, provided that the category is plain. -/
def Tells (A : Allowed) (deps : MessageDeps) (message : NormalizedMessage) (rules : List Rule)
    (w₀ w : World) (event : String) (detail : Option String) : Prop :=
  ∀ text, detail = some text → ∃ facts, Decided A deps message rules w₀ w event facts ∧
    (PlainCategory facts → Reports text facts)

theorem Tells.mono {event : String} {detail : Option String}
    (h : Tells A deps message rules w₀ w event detail) (hw : w.trace <+: w'.trace) :
    Tells A deps message rules w₀ w' event detail := by
  intro text htext
  obtain ⟨facts, hdecided, hreports⟩ := h text htext
  exact ⟨facts, hdecided.mono hw, hreports⟩

theorem tells_none {event : String} : Tells A deps message rules w₀ w event none :=
  fun _ h => by cases h

/-- Every audit row since `w₀` tells what was decided. -/
structure AllTell (A : Allowed) (deps : MessageDeps) (message : NormalizedMessage)
    (rules : List Rule) (w₀ w : World) : Prop where
  trace : w₀.trace <+: w.trace
  rows : ∃ rows, w.db.auditLog.entries = w₀.db.auditLog.entries ++ rows ∧
    ∀ row ∈ rows, Tells A deps message rules w₀ w row.event row.detailJson

theorem allTell_refl : AllTell A deps message rules w₀ w₀ :=
  ⟨List.prefix_refl _, [], (List.append_nil _).symm, fun _ h => by cases h⟩

/-- A call that writes no audit row keeps the invariant. -/
theorem AllTell.quiet {op : Op} {r : Except Exn op.Ret} (h : AllTell A deps message rules w₀ w)
    (hr : Responds A w op r w') (hop : op.audits = false) :
    AllTell A deps message rules w₀ w' := by
  have hw : w.trace <+: w'.trace := by
    rw [hr.trace]
    exact List.prefix_append _ _
  obtain ⟨rows, hrows, htell⟩ := h.rows
  exact ⟨h.trace.trans hw, rows, by rw [hr.auditLog hop, hrows], fun row hm =>
    (htell row hm).mono hw⟩

theorem keeps_allTell {p : Proc α} (hp : p.Only fun op : Op => op.audits = false) :
    (machine A).Keeps (AllTell A deps message rules w₀) p :=
  keeps_of_only (fun _ _ _ _ hop hw hr => hw.quiet hr hop) hp

theorem Op.Supporting.audits {op : Op} (h : op.Supporting) : op.audits = false := by
  cases op <;> first | exact h.elim | rfl

theorem Op.AsksModel.audits {op : Op} (h : op.AsksModel) : op.audits = false := by
  cases op <;> first | exact h.elim | rfl

theorem keeps_allTell_of_supporting {p : Proc α} (hp : p.Only Op.Supporting) :
    (machine A).Keeps (AllTell A deps message rules w₀) p :=
  keeps_allTell (hp.mono fun _ h => h.audits)

/-- An audit row that tells what was decided. -/
theorem writeAuditEntry_allTell {ts id event : String} {detail : Option String}
    (hw : AllTell A deps message rules w₀ w)
    (htells : Tells A deps message rules w₀ w event detail) :
    (machine A).wp (AllTell A deps message rules w₀)
      (call (.writeAuditEntry ts id event detail)) (fun _ _ => True) w := by
  have hgrows : ∀ r : Except Exn Unit,
      w.trace <+: (w.record (.writeAuditEntry ts id event detail) r w.db).trace :=
    fun _ => List.prefix_append _ _
  obtain ⟨rows, hrows, htell⟩ := hw.rows
  refine wp_call hw (fun u db' hA hg => ⟨?_, trivial⟩) (fun e hA he => ⟨?_, trivial⟩)
  · rw [gives_writeAuditEntry] at hg
    subst hg
    refine ⟨hw.trace.trans (hgrows _), rows ++ [⟨w.db.auditLog.seq + 1, ts, id, event, detail⟩],
      ?_, fun row hm => ?_⟩
    · rw [World.db_record, ← List.append_assoc, ← hrows]
      rfl
    · rcases List.mem_append.1 hm with hm | hm
      · exact (htell row hm).mono (hgrows (.ok ()))
      · obtain rfl := List.mem_singleton.1 hm
        exact htells.mono (hgrows (.ok ()))
  · exact ⟨hw.trace.trans (hgrows _), rows, hrows, fun row hm =>
      (htell row hm).mono (hgrows (.error e))⟩

/-- What comes after something that keeps the invariant. -/
theorem bind_allTell {β : Type} {p : Proc α} {f : α → Proc β}
    (hp : (machine A).wp (AllTell A deps message rules w₀) p (fun _ _ => True) w)
    (hf : ∀ a, (machine A).Keeps (AllTell A deps message rules w₀) (f a)) :
    (machine A).wp (AllTell A deps message rules w₀) (p >>= f) (fun _ _ => True) w := by
  refine wp_bind.2 (wp_mono (fun _ h => h) (fun r w' hw' _ => ?_) hp)
  cases r with
  | ok a => exact hf a w' hw'
  | error e => exact ⟨hw', trivial⟩

/-! ### Tier 1 -/

theorem auditThenMark_allTell {ts event : String} {detail : Option String} {row : ProcessedRow}
    (hw : AllTell A deps message rules w₀ w)
    (htells : Tells A deps message rules w₀ w event detail) :
    (machine A).wp (AllTell A deps message rules w₀)
      (Tier1.auditThenMark message ts event detail row) (fun _ _ => True) w :=
  bind_allTell (writeAuditEntry_allTell hw htells) fun _ =>
    keeps_allTell (Prog.only_perform.2 rfl)

theorem Tier1.runBranch_allTell (hdeps : deps.tier1.Wired) (ts : String) {verdict : RuleVerdict}
    (hverdict : Ended A (evaluate message rules deps.tier1.defaultUnmatchedAction
      deps.tier1.classifier) (.ok verdict) w₀ w) (hw : AllTell A deps message rules w₀ w) :
    (machine A).wp (AllTell A deps message rules w₀) (runBranch deps.tier1 message ts verdict)
      (fun _ _ => True) w := by
  rw [runBranch]
  split
  · refine (keeps_allTell_of_supporting (alertIfImmediate_only hdeps.alert message verdict)
      ).bind_reached hw fun _ w' hw' _ => ?_
    exact writeAuditEntry_allTell hw' tells_none
  · split
    · exact ⟨hw, trivial⟩
    · rename_i components hc
      have hwired := hdeps.receiptArchive components hc
      rw [archiveReceipt]
      simp only [bind_assoc, pure_bind]
      refine (keeps_allTell_of_supporting (hwired.resolveReceipt_only message (some ts))
        ).bind_reached hw fun extraction w₁ hw₁ hextraction => ?_
      refine (keeps_allTell_of_supporting (hwired.applyKeywords message _)).bind_reached hw₁
        fun _ w₂ hw₂ hkeywords => ?_
      refine (keeps_allTell_of_supporting (archivePdf_only hwired message extraction)
        ).bind_reached hw₂ fun path w₃ hw₃ hpdf => ?_
      refine auditThenMark_allTell hw₃ fun text htext => ?_
      obtain rfl := Option.some_inj.1 htext
      have hrun := (trace_of_reaches hkeywords).trans (trace_of_reaches hpdf)
      exact ⟨_, .receipt hc ⟨w, w₁, hw.trace, hextraction, hrun⟩,
        fun _ => receiptDetail_reports components extraction path⟩
  · refine (keeps_allTell (ActionExecutor.execute_only fun _ =>
      (hdeps.applier.only message verdict.action).mono fun op h => h ▸ rfl)).bind_reached hw
        fun _ w' hw' hexecute => ?_
    refine auditThenMark_allTell hw' fun text htext => ?_
    obtain rfl := Option.some_inj.1 htext
    exact ⟨_, .action (hverdict.mono (trace_of_reaches hexecute)), fun _ => actionDetail_reports _⟩

theorem processMessage_allTell (hdeps : deps.tier1.Wired) (force : Bool) :
    (machine A).Keeps (AllTell A deps message rules w₀)
      (processMessage deps.tier1 force message rules) := by
  have hungated : (machine A).Keeps (AllTell A deps message rules w₀)
      (Tier1.processUngated deps.tier1 message rules) := by
    refine (keeps_allTell (Prog.only_perform.2 rfl)).bind fun ts => ?_
    refine (keeps_allTell (Prog.only_perform.2 rfl)).bind fun _ => fun w hw => ?_
    refine (keeps_allTell_of_supporting (evaluate_only (fun c hc => hdeps.classify c hc message)
      rules deps.tier1.defaultUnmatchedAction)).bind_reached hw fun verdict w' hw' hverdict => ?_
    exact bind_allTell (Tier1.runBranch_allTell hdeps ts
      ⟨w, w', hw.trace, hverdict, List.prefix_refl _⟩ hw') fun _ => keeps_done
  rw [processMessage_eq]
  refine .ite hungated ((keeps_allTell (Prog.only_perform.2 rfl)).bind fun seen => ?_)
  exact .ite keeps_done hungated

/-! ### Tier 2 -/

theorem tells_bandDetail {verdict : Verdict} {band : ConfidenceBand}
    (h : Accepted A deps.escalation message w₀ w verdict band) :
    Tells A deps message rules w₀ w (Tier2.bandEvent band)
      (some (Tier2.bandDetail verdict band)) := by
  intro text htext
  obtain rfl := Option.some_inj.1 htext
  have hcategory : ∀ facts : List (String × String), ("category", verdict.category) ∈ facts →
      PlainCategory facts → ∀ c ∈ verdict.category.toList, Plain c := fun _ hm hplain =>
    hplain _ hm
  cases band with
  | alertOnly =>
    exact ⟨_, .alertOnly h, fun hplain =>
      Tier2.alertOnlyDetail_reports _ (hcategory _ (by simp) hplain)⟩
  | autoact | autoactAlert =>
    exact ⟨_, .acted (by decide) h, fun hplain =>
      Tier2.actedDetail_reports _ (hcategory _ (by simp) hplain)⟩

theorem Tier2.perform_only (hdeps : deps.escalation.Wired) (verdict : Verdict)
    (band : ConfidenceBand) :
    (perform deps.escalation.tier2 message verdict band).Only fun op : Op =>
      op.audits = false := by
  have halert : ∀ t b u, (deps.escalation.tier2.ops.alert t b u).Only fun op : Op =>
      op.audits = false := fun t b u => (hdeps.alert t b u).mono fun _ h => h.audits
  have hexecute : (deps.escalation.tier2.executor.execute message verdict.suggestedAction).Only
      fun op : Op => op.audits = false := ActionExecutor.execute_only fun _ =>
    (hdeps.applier.only message verdict.suggestedAction).mono fun op h => h ▸ rfl
  cases band with
  | alertOnly => exact halert _ _ _
  | autoact => exact hexecute.bind fun _ => .ite (halert _ _ _) trivial
  | autoactAlert => exact hexecute.bind fun _ => .ite (halert _ _ _) trivial

theorem Tier2.draft_only (hdeps : deps.escalation.Wired) (verdict : Verdict) :
    (draft deps.escalation.tier2 message verdict).Only fun op : Op => op.audits = false := by
  rw [draft]
  split
  · trivial
  · exact (hdeps.createDraft message _).mono fun op h => h ▸ rfl

theorem Tier2.settle_allTell (hdeps : deps.escalation.Wired) (ts : String) {verdict : Verdict}
    {band : ConfidenceBand} (h : Accepted A deps.escalation message w₀ w verdict band)
    (hw : AllTell A deps message rules w₀ w) :
    (machine A).wp (AllTell A deps message rules w₀)
      (settle deps.escalation.tier2 message ts verdict band) (fun _ _ => True) w := by
  refine (keeps_allTell (perform_only hdeps verdict band)).bind_reached hw
    fun _ w₁ hw₁ hperform => ?_
  refine (keeps_allTell (draft_only hdeps verdict)).bind_reached hw₁ fun _ w₂ hw₂ hdraft => ?_
  refine bind_allTell (writeAuditEntry_allTell hw₂
    ((tells_bandDetail h).mono ((trace_of_reaches hperform).trans (trace_of_reaches hdraft))))
      fun _ => ?_
  exact (keeps_allTell (Prog.only_perform.2 rfl)).bind fun _ =>
    keeps_allTell (Prog.only_perform.2 rfl)

theorem processTier2Message_allTell (hdeps : deps.escalation.Wired) {input : Tier2Input}
    (hinput : input.message = message) :
    (machine A).Keeps (AllTell A deps message rules w₀)
      (processTier2Message deps.escalation.tier2 input) := by
  subst hinput
  rw [processTier2Message_eq]
  refine (keeps_allTell (Prog.only_perform.2 rfl)).bind fun ts => ?_
  refine (keeps_allTell (Prog.only_perform.2 rfl)).bind fun _ => ?_
  refine (keeps_allTell (Prog.only_perform.2 rfl)).bind fun usage => .ite ?_ ?_
  · rw [Tier2.askModel]
    simp only [bind_assoc, pure_bind]
    refine (keeps_allTell_of_supporting (hdeps.getContext input.message)).bind fun context => ?_
    refine Keeps.bind ?_ fun cleaned => fun w hw => ?_
    · exact (keeps_allTell (Prog.only_perform.2 rfl)).bind fun _ => keeps_done
    refine (keeps_allTell ((hdeps.getVerdict _).mono fun _ h => h.audits)).bind_reached hw
      fun result w₁ hw₁ hresult => ?_
    refine (keeps_allTell (Prog.only_perform.2 rfl)).bind_reached hw₁ fun _ w₂ hw₂ hrecord => ?_
    cases haccept : Tier2.accept deps.escalation.tier2 input result.verdict with
    | error e => exact ⟨hw₂, trivial⟩
    | ok accepted =>
      have hended : Ended A (deps.escalation.tier2.llmClient.getVerdict _) (.ok result) w₀ w₂ :=
        ⟨w, w₁, hw.trace, hresult, trace_of_reaches hrecord⟩
      rw [ofExcept_ok, pure_bind]
      exact bind_allTell (Tier2.settle_allTell hdeps ts
        ⟨input, _, result, rfl, hended, haccept⟩ hw₂) fun _ => keeps_done
  · refine Keeps.bind (fun w hw => ?_) fun _ => keeps_done
    refine (keeps_allTell_of_supporting (hdeps.alert _ _ _)).bind_reached hw fun _ w' hw' _ => ?_
    exact auditThenMark_allTell hw' tells_none

theorem quarantine_allTell (hdeps : deps.escalation.Wired) {e : Exn}
    (h : Ended A (escalateMessage deps.escalation message) (.error e) w₀ w)
    (hw : AllTell A deps message rules w₀ w) :
    (machine A).wp (AllTell A deps message rules w₀)
      (quarantine deps.escalation.tier2.ops message e) (fun _ _ => True) w := by
  refine (keeps_allTell (Prog.only_perform.2 rfl)).bind_reached hw fun ts w' hw' hnow => ?_
  refine bind_allTell (writeAuditEntry_allTell hw' fun text htext => ?_) fun _ => ?_
  · obtain rfl := Option.some_inj.1 htext
    exact ⟨_, .quarantined (h.mono (trace_of_reaches hnow)), fun _ => quarantineDetail_reports e⟩
  · refine (keeps_allTell (Prog.only_perform.2 rfl)).bind fun _ => ?_
    refine (keeps_allTell (Prog.only_perform.2 rfl)).bind fun _ => ?_
    exact (keeps_allTell_of_supporting (hdeps.alert _ _ _)).bind fun _ => keeps_done

theorem escalateMessage_allTell (hdeps : deps.escalation.Wired) :
    (machine A).Keeps (AllTell A deps message rules w₀)
      (escalateMessage deps.escalation message) := by
  refine (keeps_allTell_of_supporting (hdeps.getThreadContext message)).bind fun context => ?_
  refine (keeps_allTell_of_supporting hdeps.listMailboxes).bind fun mailboxes => ?_
  exact processTier2Message_allTell hdeps rfl

theorem escalateMessageOrQuarantine_allTell (hdeps : deps.escalation.Wired) :
    (machine A).Keeps (AllTell A deps message rules w₀)
      (escalateMessageOrQuarantine deps.escalation message) := by
  intro w hw
  rw [escalateMessageOrQuarantine, Prog.tryCatch, Prog.bind_def, Prog.andThen_assoc]
  refine (escalateMessage_allTell hdeps).andThen_reached hw fun r w' hw' hr => ?_
  cases r with
  | ok verdict => exact ⟨hw', trivial⟩
  | error e =>
    show (machine A).wp _ (if e.cls.quarantinable then _ else _) _ w'
    split
    · exact quarantine_allTell hdeps ⟨w, w', hw.trace, hr, List.prefix_refl _⟩ hw'
    · exact ⟨hw', trivial⟩

end Runs

/-! ## Runs -/

/-- A run of one of the tiers on a message, from `w₀` to `w`, wherever it is cut off. -/
inductive RunsTo (A : Allowed) (deps : MessageDeps) (message : NormalizedMessage)
    (rules : List Rule) (w₀ w : World) : Prop where
  | processMessage {force : Bool} {p : Proc (Option RuleVerdict)}
      (h : (machine A).Reaches (Spork.processMessage deps.tier1 force message rules) w₀ p w) :
      RunsTo A deps message rules w₀ w
  | escalateMessageOrQuarantine {p : Proc EscalationResult}
      (h : (machine A).Reaches (Spork.escalateMessageOrQuarantine deps.escalation message) w₀ p w) :
      RunsTo A deps message rules w₀ w

theorem RunsTo.allTell {A : Allowed} {deps : MessageDeps} {message : NormalizedMessage}
    {rules : List Rule} {w₀ w : World} (hdeps : deps.Wired)
    (h : RunsTo A deps message rules w₀ w) : AllTell A deps message rules w₀ w := by
  cases h with
  | processMessage h => exact (processMessage_allTell hdeps.tier1 _).reaches allTell_refl h
  | escalateMessageOrQuarantine h =>
    exact (escalateMessageOrQuarantine_allTell hdeps.escalation).reaches allTell_refl h

theorem Decided.plainCategory {A : Allowed} {deps : MessageDeps} {message : NormalizedMessage}
    {rules : List Rule} {w₀ w : World} {event : String} {facts : List (String × String)}
    (h : Decided A deps message rules w₀ w event facts)
    (hplain : ∀ verdict band, Accepted A deps.escalation message w₀ w verdict band →
      ∀ c ∈ verdict.category.toList, Plain c) : PlainCategory facts := by
  intro category hcategory
  cases h with
  | acted hband haccepted =>
    obtain rfl : category = _ := by simpa using hcategory
    exact hplain _ _ haccepted
  | alertOnly haccepted =>
    obtain rfl : category = _ := by simpa using hcategory
    exact hplain _ _ haccepted
  | action _ | receipt _ _ | quarantined _ => simp at hcategory

/-- **Every audit detail is a JSON object that reports what its run decided**, in every run of
either tier of every deployment, wherever it is cut off, as long as no verdict is accepted the
category of which holds a quote, a backslash or a control character.  The rest of the details hold
for whatever texts they are given. -/
theorem auditDetails_told (A : Allowed) (d : Deployment) (message : NormalizedMessage)
    (rules : List Rule) (w₀ w : World) (hrun : RunsTo A d.deps message rules w₀ w)
    (hplain : ∀ verdict band, Accepted A d.escalation message w₀ w verdict band →
      ∀ c ∈ verdict.category.toList, Plain c) :
    ∃ rows, w.db.auditLog.entries = w₀.db.auditLog.entries ++ rows ∧
      ∀ row ∈ rows, ∀ detail, row.detailJson = some detail →
        ∃ facts, Decided A d.deps message rules w₀ w row.event facts ∧ Reports detail facts := by
  obtain ⟨rows, hrows, htells⟩ := (hrun.allTell d.wired).rows
  refine ⟨rows, hrows, fun row hm detail hdetail => ?_⟩
  obtain ⟨facts, hdecided, hreports⟩ := htells row hm detail hdetail
  exact ⟨facts, hdecided, hreports (hdecided.plainCategory hplain)⟩

theorem Accepted.category_mem {A : Allowed} {deps : EscalateDeps} {message : NormalizedMessage}
    {w₀ w : World} {verdict : Verdict} {band : ConfidenceBand}
    (h : Accepted A deps message w₀ w verdict band) :
    verdict.category ∈ deps.tier2.tiering.allowedCategories := by
  obtain ⟨input, request, result, _, _, haccept⟩ := h
  rcases Tier2.accept_cases deps.tier2 input result.verdict with ⟨hok, hadm, _⟩ | ⟨e, herr, _⟩ |
    ⟨e, herr, _⟩
  · rw [hok] at haccept
    cases haccept
    exact hadm.1
  · rw [herr] at haccept
    cases haccept
  · rw [herr] at haccept
    cases haccept

/-- On a quiet day the one category is plain, and the audit row of `letter` reports it. -/
theorem auditDetails_told_quiet : ∃ w rows,
    RunsTo anything oneCall.deps letter [] ⟨.empty, []⟩ w ∧ rows ≠ [] ∧
    w.db.auditLog.entries = [] ++ rows ∧ ∀ row ∈ rows, ∀ detail, row.detailJson = some detail →
      ∃ facts, Decided anything oneCall.deps letter [] ⟨.empty, []⟩ w row.event facts ∧
        Reports detail facts := by
  have hrun : RunsTo anything oneCall.deps letter [] ⟨.empty, []⟩ _ :=
    .escalateMessageOrQuarantine (Env.quiet_reaches _ _)
  obtain ⟨rows, hrows, htold⟩ := auditDetails_told anything oneCall letter [] _ _ hrun
    fun verdict band haccepted => by
      have hcategory := haccepted.category_mem
      rw [List.mem_singleton.1 hcategory]
      exact plain_of_all (by decide)
  refine ⟨_, rows, hrun, ?_, hrows, htold⟩
  rintro rfl
  have hempty : (Env.quiet.eval (escalateMessageOrQuarantine oneCall.escalation letter)
    ⟨.empty, []⟩).2.db.auditLog.entries.isEmpty = false := by decide +kernel
  have hnil : (Env.quiet.eval (escalateMessageOrQuarantine oneCall.escalation letter)
    ⟨.empty, []⟩).2.db.auditLog.entries = [] := hrows
  rw [hnil] at hempty
  cases hempty

/-- A deployment with a category that holds quotes. -/
def quoting : Deployment where
  tiering := { dailyCallBudget := 1, allowedCategories := ["say \"hi\""] }

/-- A day on which the model uses it. -/
def Env.quoting : Env := fun _ op =>
  match op with
  | .getVerdict _ => .ok
    ⟨{ quietVerdict with
        category := "say \"hi\""
        not_escalate := by decide
        not_archive := by decide }, ⟨10, 10⟩⟩
  | op => .ok (quietAnswer op)

theorem Env.quoting_lawful : Env.quoting.Lawful := by
  intro w op e h
  cases op <;> cases h

/-- Then the audit log holds a detail that is not JSON. -/
theorem quoted_category_unreadable : ∃ w p,
    (machine anything).Reaches (escalateMessageOrQuarantine quoting.escalation letter)
      ⟨.empty, []⟩ p w ∧ ∃ row ∈ w.db.auditLog.entries, ∃ detail, row.detailJson = some detail ∧
        loads detail.toList = none := by
  refine ⟨_, _, Env.reaches Env.quoting_lawful (fun _ _ => trivial) _ _, ?_⟩
  have hunread : (Env.quoting.eval (escalateMessageOrQuarantine quoting.escalation letter)
      ⟨.empty, []⟩).2.db.auditLog.entries.any (fun row =>
        row.detailJson.any fun detail => (loads detail.toList).isNone) = true := by
    decide +kernel
  obtain ⟨row, hm, hrow⟩ := List.any_eq_true.1 hunread
  cases hdetail : row.detailJson with
  | none => simp [hdetail] at hrow
  | some detail =>
    rw [hdetail, Option.any_some] at hrow
    exact ⟨row, hm, detail, hdetail, Option.isNone_iff_eq_none.1 hrow⟩

end Spork
