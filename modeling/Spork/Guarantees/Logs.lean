import Spork.Cli.Logs
import Spork.Timestamps
import Mathlib.Algebra.Order.Ring.Cast

/-!
# What the log shows

`--since` compares texts: whether an entry is shown depends on the microsecond from which a text of
an entry is at or after the text that was given (`Instant.textMicros`), and an entry between that
microsecond and the instant itself is misjudged.  `--tail` cuts a slice, which for zero is the whole
list.

* `logs_as_meant_iff`: for which inputs the log shows what the options say.
* `logs_exact`: an instant written as the entries are is never misjudged.
-/

set_option autoImplicit false

namespace Spork

open Tails Timestamps

/-- The moment lies between the instant and the microsecond from which the texts compare. -/
def Misjudges (since : Instant) (m : Moment) : Prop :=
  (since.textMicros ≤ m.micros ∧ (m.micros : ℚ) < since.micros) ∨
    (since.micros ≤ m.micros ∧ m.micros < since.textMicros)

theorem not_misjudges_iff {since : Instant} {m : Moment} :
    ¬Misjudges since m ↔ (since.textMicros ≤ m.micros ↔ since.micros ≤ m.micros) := by
  rw [Misjudges, ← not_le (α := ℚ), ← not_le (α := ℤ)]
  tauto

/-- **An instant written as the entries are** misjudges none of them. -/
theorem not_misjudges_of_isExact {since : Instant} (h : since.IsExact) (m : Moment) :
    ¬Misjudges since m := by
  rw [not_misjudges_iff, ← h.textMicros_eq, Int.cast_le]

section

variable {entries : List AuditEntry} {stamp : AuditEntry → Moment}

/-- The entries are stamped by the clock. -/
def Stamped (stamp : AuditEntry → Moment) (entries : List AuditEntry) : Prop :=
  ∀ entry ∈ entries, entry.ts = (stamp entry).isoformat

/-- At or after the instant, if there is one. -/
def late (stamp : AuditEntry → Moment) (since : Option Instant) (entry : AuditEntry) : Bool :=
  since.all fun i => decide (i.micros ≤ ((stamp entry).micros : ℚ))

/-- What the options say: the last so many of the entries at or after the instant. -/
def meant (stamp : AuditEntry → Moment) (entries : List AuditEntry) (tail : Option Nat)
    (since : Option Instant) : List String :=
  let entries := entries.filter (late stamp since)
  let entries := match tail with
    | none => entries
    | some tail => entries.rtake tail
  entries.map AuditEntry.line

/-- An end of the list with enough entries to show, none of which is misjudged.  Without a number,
it is the whole list; and nothing is shown for zero only if nothing is late enough. -/
def ShownAsMeant (stamp : AuditEntry → Moment) (entries : List AuditEntry)
    (since : Option Instant) : Option Nat → Prop
  | none => ∀ entry ∈ entries, ∀ i ∈ since, ¬Misjudges i (stamp entry)
  | some 0 => ∀ entry ∈ entries, ∃ i ∈ since, (stamp entry).micros < i.textMicros
  | some (n + 1) => ∃ before after, entries = before ++ after ∧
      (∀ entry ∈ after, ∀ i ∈ since, ¬Misjudges i (stamp entry)) ∧
        (before = [] ∨ n + 1 ≤ (after.filter (late stamp since)).length)

/-- Let through by the comparison of texts. -/
def shown (since : Option Instant) (entry : AuditEntry) : Bool :=
  since.all fun i => decide (i.text ≤ entry.ts)

theorem shown_eq_late_iff {since : Option Instant} {entry : AuditEntry}
    (h : entry.ts = (stamp entry).isoformat) :
    shown since entry = late stamp since entry ↔ ∀ i ∈ since, ¬Misjudges i (stamp entry) := by
  cases since with
  | none => exact iff_of_true rfl (by rintro _ ⟨⟩)
  | some i =>
    rw [shown, late, Option.all_some, Option.all_some, h, Bool.eq_iff_iff, decide_eq_true_iff,
      decide_eq_true_iff, text_le_isoformat_iff, ← not_misjudges_iff]
    exact ⟨fun hi j hj => Option.some.inj hj ▸ hi, fun hall => hall i rfl⟩

/-- The time is read off the line. -/
theorem ts_eq_of_line_eq (hstamped : Stamped stamp entries) {a b : AuditEntry} (ha : a ∈ entries)
    (hb : b ∈ entries) (h : a.line = b.line) : a.ts = b.ts := by
  have hline : ∀ entry : AuditEntry, ∃ rest,
      entry.line.toList = entry.ts.toList ++ ' ' :: rest := by
    intro entry
    simp only [AuditEntry.line, String.toList_append, List.append_assoc]
    exact ⟨_, rfl⟩
  obtain ⟨rest, hrest⟩ := hline a
  obtain ⟨rest', hrest'⟩ := hline b
  have hspace : ∀ entry ∈ entries, ∀ rest,
      (entry.ts.toList ++ ' ' :: rest).takeWhile (· != ' ') = entry.ts.toList := by
    intro entry hm rest
    rw [List.takeWhile_append_of_pos, List.takeWhile_cons_of_neg (by decide), List.append_nil]
    intro c hc
    refine bne_iff_ne.2 fun he => space_not_mem_isoformat (stamp entry) ?_
    rw [← hstamped entry hm, ← he]
    exact hc
  rw [← String.toList_inj, ← hspace a ha rest, ← hspace b hb rest', ← hrest, ← hrest', h]

theorem determines_shown (hstamped : Stamped stamp entries) (since : Option Instant) :
    Determines AuditEntry.line (shown since) entries := by
  intro a ha b hb h
  rw [shown, shown, ts_eq_of_line_eq hstamped ha hb h]

theorem determines_late (hstamped : Stamped stamp entries) (since : Option Instant) :
    Determines AuditEntry.line (late stamp since) entries := by
  intro a ha b hb h
  have hts := ts_eq_of_line_eq hstamped ha hb h
  rw [hstamped a ha, hstamped b hb] at hts
  rw [late, late, micros_eq_of_isoformat_eq hts]

/-- What is cut off the entries that are let through. -/
def cut (tail : Option Nat) (entries : List AuditEntry) : List AuditEntry :=
  match tail with
  | none | some 0 => entries
  | some (n + 1) => entries.rtake (n + 1)

theorem sliced_eq_cut (tail : Option Nat) (entries : List AuditEntry) :
    (match tail.map Int.ofNat with
      | none => entries
      | some tail => sliceFrom (-tail) entries) = cut tail entries := by
  match tail with
  | none => rfl
  | some 0 => rfl
  | some (n + 1) => exact (sliceFrom_neg (n + 1) entries).trans (if_neg n.succ_ne_zero)

theorem logs_eq (db : StateDB) (messageId : Option String) (tail : Option Nat)
    (since : Option Instant) :
    logs db (tail.map Int.ofNat) (since.map Instant.text) messageId
      = (cut tail ((db.getAuditEntries messageId).filter (shown since))).map AuditEntry.line := by
  cases since with
  | none =>
    have hall : (db.getAuditEntries messageId).filter (shown none)
        = db.getAuditEntries messageId := List.filter_true _
    rw [hall]
    exact congrArg (List.map AuditEntry.line) (sliced_eq_cut tail _)
  | some i => exact congrArg (List.map AuditEntry.line) (sliced_eq_cut tail _)

end

/-- **The log shows what its options say exactly under this condition.** -/
theorem logs_as_meant_iff (db : StateDB) (messageId : Option String) (stamp : AuditEntry → Moment)
    (hstamped : Stamped stamp (db.getAuditEntries messageId)) (since : Option Instant)
    (tail : Option Nat) :
    logs db (tail.map Int.ofNat) (since.map Instant.text) messageId
        = meant stamp (db.getAuditEntries messageId) tail since ↔
      ShownAsMeant stamp (db.getAuditEntries messageId) since tail := by
  have hshown := determines_shown hstamped since
  have hlate := determines_late hstamped since
  have hagree : ∀ entry ∈ db.getAuditEntries messageId,
      (shown since entry = late stamp since entry ↔ ∀ i ∈ since, ¬Misjudges i (stamp entry)) :=
    fun entry hm => shown_eq_late_iff (hstamped entry hm)
  rw [logs_eq]
  match tail with
  | none => exact (map_filter_eq_iff hshown hlate).trans (forall₂_congr hagree)
  | some 0 =>
    rw [meant]
    dsimp only [cut]
    rw [List.rtake_zero, List.map_nil, List.map_eq_nil_iff, List.filter_eq_nil_iff]
    refine forall₂_congr fun entry hm => ?_
    cases since with
    | none => exact iff_of_false (fun h => h rfl) (by rintro ⟨_, ⟨⟩, _⟩)
    | some i =>
      rw [shown, Option.all_some, decide_eq_true_iff, hstamped entry hm, text_le_isoformat_iff,
        not_le]
      exact ⟨fun h => ⟨i, rfl, h⟩, fun ⟨j, hj, h⟩ => Option.some.inj hj ▸ h⟩
  | some (n + 1) =>
    refine (map_rtake_filter_eq_iff hshown hlate (n + 1)).trans ?_
    refine exists₂_congr fun before after => and_congr_right fun he => ?_
    have hafter : ∀ entry ∈ after, (shown since entry = late stamp since entry ↔
        ∀ i ∈ since, ¬Misjudges i (stamp entry)) := fun entry hm =>
      hagree entry (he ▸ List.mem_append_right before hm)
    rw [forall₂_congr hafter]
    refine and_congr_right fun hall => or_congr_right ?_
    rw [List.filter_congr fun entry hm => (hafter entry hm).2 (hall entry hm)]

/-- Half past nine. -/
def halfPastNine : Calendar.Civil where
  year := 2026
  month := 8
  day := 12
  hour := 9
  minute := 30
  second := 0
  year_lt := by decide
  valid := ⟨by decide, by decide, by decide, by decide⟩
  hour_lt := by decide
  minute_lt := by decide
  second_lt := by decide

/-- A store with one entry, of half past nine. -/
def oneEntry : StateDB :=
  StateDB.empty.writeAuditEntry "2026-08-12T09:30:00+00:00" "M1" "action_applied" none

theorem oneEntry_stamped :
    Stamped (fun _ => ⟨halfPastNine, 0⟩) (oneEntry.getAuditEntries none) := by
  intro entry hm
  obtain rfl := List.mem_singleton.1 hm
  decide +kernel

/-- Half past nine, to the second. -/
def halfPastNineIn (zone : Zone) : Instant where
  day := .calendar 2026 8 12
  basicDay := false
  clock := .seconds ⟨9, by decide⟩ ⟨30, by decide⟩ ⟨0, by decide⟩
  basicClock := false
  comma := false
  decimals := []
  zone := zone
  year_lt := by decide
  valid := halfPastNine.valid
  ends := by decide

theorem isExact_halfPastNineIn : (halfPastNineIn (.plus false 0 0)).IsExact where
  day := ⟨rfl, _, _, _, rfl⟩
  clock := ⟨rfl, _, _, _, rfl, by decide, by decide⟩
  zone := ⟨rfl, rfl⟩
  decimals := .inl rfl

/-- With its own time, written as the entry writes it, the entry is the last one. -/
theorem oneEntry_shown : logs oneEntry (some 1) (some "2026-08-12T09:30:00+00:00") none
    = meant (fun _ => ⟨halfPastNine, 0⟩) (oneEntry.getAuditEntries none) (some 1)
      (some (halfPastNineIn (.plus false 0 0))) := by
  have htext : "2026-08-12T09:30:00+00:00" = (halfPastNineIn (.plus false 0 0)).text := by
    decide +kernel
  rw [htext]
  refine (logs_as_meant_iff oneEntry none _ oneEntry_stamped
    (some (halfPastNineIn (.plus false 0 0))) (some 1)).2 ⟨[], _, rfl, ?_, .inl rfl⟩
  intro entry _ i hi
  obtain rfl := Option.some.inj hi
  exact not_misjudges_of_isExact isExact_halfPastNineIn _

/-- With the same time, written with `Z`, it is not shown; and the last zero entries are all. -/
theorem zulu_hides_zero_shows :
    (halfPastNineIn .utc).text = "2026-08-12T09:30:00Z" ∧
      logs oneEntry none (some "2026-08-12T09:30:00Z") none = [] ∧
      meant (fun _ => ⟨halfPastNine, 0⟩) (oneEntry.getAuditEntries none) none
          (some (halfPastNineIn .utc))
        = ["2026-08-12T09:30:00+00:00 M1 action_applied"] ∧
      logs oneEntry (some 0) none none = ["2026-08-12T09:30:00+00:00 M1 action_applied"] ∧
      meant (fun _ => ⟨halfPastNine, 0⟩) (oneEntry.getAuditEntries none) (some 0) none = [] := by
  decide +kernel

end Spork
