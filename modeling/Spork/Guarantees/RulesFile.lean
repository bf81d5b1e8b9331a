import Spork.Cli.Rules
import Spork.Toml.Printing

/-!
# Writing the rules file and loading it again

`dump_rules` is meant to be undone by `load_rules`.  The writer escapes quotes and backslashes, but
a basic string of TOML must not hold a control character other than a tab either, and a file can
spell such characters in other ways.

* `dumpRules_toList`: the text is that of a printed TOML document, a block for each rule.
* `readText_dumpRules`: reading line ends goes through the document into its strings.
* `loadRules_dumpRules`: what loading the file comes to, for every list of rules with different ids.
* `dumpRules_undone_iff`: so the round trip, and `_set_enabled` with it, is exact for the rules
  without control characters; `disabling_breaks_file` is a file that is lost.
-/

set_option autoImplicit false

namespace Spork

open Toml (Value Table Printed Pair Pairs quoted escapeChar isLegal isIllegal)

/-! ## What is written, as printed TOML -/

/-- The two replacements come to escaping every character by itself. -/
theorem tomlString_toList (s : String) : (tomlString s).toList = quoted s := by
  have h : ∀ c, ((if c = '\\' then ['\\', '\\'] else [c]).flatMap fun d =>
      if d = '"' then ['\\', '"'] else [d]) = escapeChar c := by
    intro c
    by_cases hb : c = '\\'
    · subst hb; rfl
    · by_cases hq : c = '"'
      · subst hq; rfl
      · simp [escapeChar, hb, hq]
  have hq : ("\"" : String).toList = ['"'] := by decide
  simp only [tomlString, replaceChar, String.toList_append, String.toList_ofList, hq,
    List.flatMap_assoc, h]
  rfl

/-- A field's value. -/
def PlainValue.printed : PlainValue → Printed
  | .boolean b => .boolean b
  | .string s => .string s
  | .strings ss => .array (ss.map .string)

theorem tomlValue_toList (v : PlainValue) : (tomlValue v).toList = v.printed.text := by
  cases v with
  | boolean b => cases b <;> decide
  | string s => exact tomlString_toList s
  | strings ss =>
    have hm : (ss.map tomlString).map String.toList = (ss.map Printed.string).map Printed.text := by
      rw [List.map_map, List.map_map]
      exact List.map_congr_left fun s _ => tomlString_toList s
    rw [tomlValue, String.toList_append, String.toList_append, String.toList_intercalate, hm]
    rfl

/-- Some fields, as the pairs of a table. -/
def fieldPairs (fields : List (String × PlainValue)) : List Pair :=
  fields.map fun f => (f.1, f.2.printed)

theorem fieldPairs_keys (fields : List (String × PlainValue)) :
    (fieldPairs fields).map Prod.fst = fields.map Prod.fst := by
  rw [fieldPairs, List.map_map]
  rfl

/-- The keys that are left are in the order of the fields. -/
theorem excludeNone_keys_sublist : ∀ (fields : List (String × Option PlainValue)),
    ((excludeNone fields).map Prod.fst).Sublist (fields.map Prod.fst)
  | [] => .slnil
  | (key, none) :: fields => (excludeNone_keys_sublist fields).cons key
  | (key, some _) :: fields => (excludeNone_keys_sublist fields).cons_cons key

/-- Pairs whose keys are some of a list of known ones, in order. -/
def pairsOf (keys : List String) (hb : ∀ key ∈ keys, Toml.isBareKey key = true) (hd : keys.Nodup)
    (pairs : List Pair) (hs : (pairs.map Prod.fst).Sublist keys) : Pairs where
  pairs := pairs
  bare := fun p hp => hb p.1 (hs.subset (List.mem_map_of_mem hp))
  nodup := hd.sublist hs

/-- The fields of a condition. -/
def conditionKeys : List String :=
  ["always", "from_domain_in", "from_in", "local_classifier_category_in"]

/-- The fields of an action. -/
def actionKeys : List String := ["type", "mailbox", "reason", "alert_immediately"]

def Condition.pairs (c : Condition) : Pairs :=
  pairsOf conditionKeys (by decide) (by decide) (fieldPairs c.dump)
    (by rw [fieldPairs_keys]; exact excludeNone_keys_sublist _)

def Action.pairs (a : Action) : Pairs :=
  pairsOf actionKeys (by decide) (by decide) (fieldPairs a.dump)
    (by rw [fieldPairs_keys]; exact excludeNone_keys_sublist _)

theorem Condition.pairs_ne_nil (c : Condition) : c.pairs.pairs ≠ [] := List.cons_ne_nil _ _

theorem Action.pairs_ne_nil (a : Action) : a.pairs.pairs ≠ [] := List.cons_ne_nil _ _

/-- The lines of a rule behind its header. -/
def Rule.pairList (rule : Rule) : List Pair :=
  [("id", .string rule.id)] ++
    (if rule.description = "" then [] else [("description", .string rule.description)]) ++
    [("enabled", .boolean rule.enabled),
      ("when", .inlineTable rule.when.pairs rule.when.pairs_ne_nil),
      ("action", .inlineTable rule.action.pairs rule.action.pairs_ne_nil)]

def Rule.pairs (rule : Rule) : Pairs :=
  pairsOf ["id", "description", "enabled", "when", "action"] (by decide) (by decide) rule.pairList
    (by rw [Rule.pairList]; split <;> simp)

/-! ### Lines and blocks -/

/-- Joined and ended by a separator: a separator behind each. -/
theorem intercalate_append_separator {α : Type} (sep : List α) : ∀ {xs : List (List α)}, xs ≠ [] →
    sep.intercalate xs ++ sep = xs.flatMap fun x => x ++ sep
  | [x], _ => by simp
  | x :: y :: xs, _ => by
    rw [List.intercalate_cons_cons, List.append_assoc,
      intercalate_append_separator sep (List.cons_ne_nil y xs), List.flatMap_cons (x := x)]

/-- An empty line between two blocks is one more end of line between two that are ended. -/
theorem intercalate_twice {α : Type} (sep : List α) : ∀ {xs : List (List α)}, xs ≠ [] →
    (sep ++ sep).intercalate xs ++ sep = sep.intercalate (xs.map fun x => x ++ sep)
  | [x], _ => by simp
  | x :: y :: xs, _ => by
    rw [List.intercalate_cons_cons, List.append_assoc,
      intercalate_twice sep (List.cons_ne_nil y xs)]
    simp only [List.map_cons, List.intercalate_cons_cons, List.append_assoc]

theorem pair_toList (key : String) (value : String) (v : Printed) (h : value.toList = v.text) :
    (key ++ " = " ++ value).toList = Pair.text (key, v) := by
  have he : (" = " : String).toList = [' ', '=', ' '] := by decide
  rw [String.toList_append, String.toList_append, h, he, Pair.text]
  simp only [List.append_assoc, List.cons_append, List.nil_append]

theorem inlineTable_toList (fields : List (String × PlainValue)) :
    (inlineTable fields).toList =
      '{' :: ' ' :: Toml.pairsText (fieldPairs fields) ++ [' ', '}'] := by
  have hm : (fields.map fun f => f.1 ++ " = " ++ tomlValue f.2).map String.toList =
      (fieldPairs fields).map Pair.text := by
    rw [List.map_map, fieldPairs, List.map_map]
    exact List.map_congr_left fun f _ => pair_toList f.1 _ _ (tomlValue_toList f.2)
  have hl : ("\x7b " : String).toList = ['{', ' '] := by decide
  have hr : (" \x7d" : String).toList = [' ', '}'] := by decide
  have hs : (", " : String).toList = [',', ' '] := by decide
  rw [inlineTable, String.toList_append, String.toList_append, String.toList_intercalate, hm, hl,
    hr,
    hs]
  rfl

theorem Rule.lines_toList (rule : Rule) :
    rule.lines.map String.toList = "[[rule]]".toList :: rule.pairList.map Pair.text := by
  have hid : ("id = " ++ tomlString rule.id).toList = Pair.text ("id", .string rule.id) :=
    pair_toList "id" _ _ (tomlString_toList rule.id)
  have hde : ("description = " ++ tomlString rule.description).toList =
      Pair.text ("description", .string rule.description) :=
    pair_toList "description" _ _ (tomlString_toList rule.description)
  have hen : ("enabled = " ++ tomlValue (.boolean rule.enabled)).toList =
      Pair.text ("enabled", .boolean rule.enabled) :=
    pair_toList "enabled" _ _ (tomlValue_toList (.boolean rule.enabled))
  have hwh : ("when = " ++ inlineTable rule.when.dump).toList =
      Pair.text ("when", .inlineTable rule.when.pairs rule.when.pairs_ne_nil) :=
    pair_toList "when" _ _ (inlineTable_toList rule.when.dump)
  have hac : ("action = " ++ inlineTable rule.action.dump).toList =
      Pair.text ("action", .inlineTable rule.action.pairs rule.action.pairs_ne_nil) :=
    pair_toList "action" _ _ (inlineTable_toList rule.action.dump)
  rw [Rule.lines, Rule.pairList]
  split <;> simp only [List.map_append, List.map_cons, List.map_nil, hid, hde, hen, hwh,
    hac] <;> rfl

theorem Rule.block_toList (rule : Rule) :
    (String.intercalate "\n" rule.lines).toList ++ ['\n'] = Toml.blockText "rule" rule.pairs := by
  have hn : ("\n" : String).toList = ['\n'] := by decide
  rw [String.toList_intercalate, rule.lines_toList, hn,
    intercalate_append_separator _ (List.cons_ne_nil _ _), List.flatMap_cons, List.flatMap_map]
  rfl

/-- **The rules file is a TOML document with a block for each rule.** -/
theorem dumpRules_toList (rules : List Rule) :
    (dumpRules rules).toList = Toml.documentText "rule" (rules.map Rule.pairs) := by
  have hn : ("\n" : String).toList = ['\n'] := by decide
  have hnn : ("\n\n" : String).toList = ['\n'] ++ ['\n'] := by decide
  cases rules with
  | nil => decide
  | cons rule rules =>
    have hm : ((rule :: rules).map fun rule =>
        (String.intercalate "\n" rule.lines).toList ++ ['\n'])
        = ((rule :: rules).map Rule.pairs).map (Toml.blockText "rule") := by
      rw [List.map_map]
      exact List.map_congr_left fun rule _ => rule.block_toList
    rw [dumpRules]
    simp only [List.map_cons, List.cons_ne_nil, if_false]
    rw [String.toList_append, String.toList_intercalate, hn, hnn, intercalate_twice _ (by simp)]
    rw [Toml.documentText, ← List.map_cons (f := Rule.pairs), ← hm]
    simp only [List.map_cons, List.map_map]
    rfl

/-! ## Line ends

The file is read as text, which changes line ends wherever they stand, inside of strings too. -/

/-- Inside of quotes, line ends are read as they are read outside. -/
theorem universalNewlines_escaped (rest : List Char) : ∀ (cs : List Char),
    universalNewlines (cs.flatMap escapeChar ++ '"' :: rest) =
      (universalNewlines cs).flatMap escapeChar ++ '"' :: universalNewlines rest := by
  intro cs
  induction cs using universalNewlines.induct with
  | case1 => exact universalNewlines_cons (by decide) rest
  | case2 cs ih =>
    have he : ('\r' :: '\n' :: cs).flatMap escapeChar = '\r' :: '\n' :: cs.flatMap escapeChar := rfl
    rw [he, List.cons_append, List.cons_append, universalNewlines_crlf, ih, universalNewlines_crlf]
    rfl
  | case3 cs h ih =>
    have he : ('\r' :: cs).flatMap escapeChar = '\r' :: cs.flatMap escapeChar := rfl
    have hn : ∀ ds, cs.flatMap escapeChar ++ '"' :: rest = '\n' :: ds → False := by
      intro ds hd
      cases cs with
      | nil => exact absurd (List.cons.inj hd).1 (by decide)
      | cons c cs =>
        rw [List.flatMap_cons, escapeChar] at hd
        split at hd
        · exact absurd (List.cons.inj hd).1 (by decide)
        · exact h cs (by rw [(List.cons.inj hd).1])
    rw [he, List.cons_append, universalNewlines_cr hn, ih, universalNewlines_cr h]
    rfl
  | case4 c cs h ih =>
    rw [List.flatMap_cons, List.append_assoc, universalNewlines_cons h, List.flatMap_cons,
      List.append_assoc]
    have he : ReadAs (escapeChar c) (escapeChar c) := by
      refine .of_not_mem fun hm => ?_
      rw [escapeChar] at hm
      split at hm
      · rcases List.mem_cons.1 hm with he | hm
        · exact absurd he (by decide)
        · exact h (List.mem_singleton.1 hm).symm
      · exact h (List.mem_singleton.1 hm).symm
    rw [he, ih]

/-- What a text in quotes is read as. -/
theorem ReadAs.quoted (s : String) : ReadAs (quoted s) (quoted (readText s)) := by
  intro rest
  rw [Toml.quoted, Toml.quoted, readText, String.toList_ofList, List.cons_append, List.cons_append,
    List.append_assoc, List.append_assoc, universalNewlines_cons (by decide)]
  exact congrArg _ (universalNewlines_escaped rest s.toList)

/-- A line end inside of a string is illegal before and after. -/
theorem isLegal_readText (s : String) : isLegal (readText s) = isLegal s := by
  rw [isLegal, isLegal, readText, String.toList_ofList]
  induction s.toList using universalNewlines.induct with
  | case1 => rfl
  | case2 cs ih => rw [universalNewlines_crlf]; rfl
  | case3 cs h ih => rw [universalNewlines_cr h]; rfl
  | case4 c cs h ih => rw [universalNewlines_cons h, List.all_cons, ih, List.all_cons]

/-- A legal text is read as it is. -/
theorem readText_of_isLegal {s : String} (h : isLegal s = true) : readText s = s := by
  have hr : '\r' ∉ s.toList := fun hm => by
    have := List.all_eq_true.1 h _ hm
    exact absurd this (by decide)
  have he := ReadAs.of_not_mem hr []
  simp only [List.append_nil] at he
  rw [readText, he, universalNewlines, List.append_nil, String.ofList_toList]

/-! ### The rules that the texts of a file are read as -/

def PlainValue.reread : PlainValue → PlainValue
  | .boolean b => .boolean b
  | .string s => .string (readText s)
  | .strings ss => .strings (ss.map readText)

def Condition.reread (c : Condition) : Condition :=
  { c with
    fromDomainIn := c.fromDomainIn.map (List.map readText)
    fromIn := c.fromIn.map (List.map readText)
    localClassifierCategoryIn := c.localClassifierCategoryIn.map (List.map readText) }

def Action.reread (a : Action) : Action :=
  { a with mailbox := a.mailbox.map readText, reason := a.reason.map readText }

/-- The rule with every text of it read from a file. -/
def Rule.reread (rule : Rule) : Rule :=
  { rule with
    id := readText rule.id
    description := readText rule.description
    when := rule.when.reread
    action := rule.action.reread }

theorem PlainValue.readAs (v : PlainValue) : ReadAs v.printed.text v.reread.printed.text := by
  cases v with
  | boolean b => cases b <;> exact .of_not_mem (by decide)
  | string s => exact .quoted s
  | strings ss =>
    have hi : ReadAs (Toml.itemsText (ss.map .string))
      (Toml.itemsText ((ss.map readText).map .string)) := by
      simp only [Toml.itemsText, List.map_map]
      exact .intercalate (by decide) fun s _ => .quoted s
    exact ((ReadAs.of_not_mem (show '\r' ∉ ['['] by decide)).append hi).append
      (.of_not_mem (by decide))

theorem not_mem_of_isBareKey {key : String} (h : Toml.isBareKey key = true) :
    '\r' ∉ key.toList := by
  intro hm
  rw [Toml.isBareKey, Bool.and_eq_true, List.all_eq_true] at h
  exact absurd (h.2 _ hm) (by decide)

theorem ReadAs.pair {key : String} (hk : Toml.isBareKey key = true) {v v' : Printed}
    (h : ReadAs v.text v'.text) : ReadAs (Pair.text (key, v)) (Pair.text (key, v')) :=
  (ReadAs.of_not_mem (not_mem_of_isBareKey hk)).append
    ((ReadAs.of_not_mem (show '\r' ∉ [' ', '=', ' '] by decide)).append h)

theorem ReadAs.lines {ps qs : List Pair}
    (h : List.Forall₂ (fun p q => ReadAs p.text q.text) ps qs) :
    ReadAs (ps.flatMap fun p => p.text ++ ['\n']) (qs.flatMap fun q => q.text ++ ['\n']) := by
  induction h with
  | nil => exact .nil
  | cons hp _ ih => exact (hp.append (.of_not_mem (by decide))).append ih

/-- The fields of a table with every text of it read from a file. -/
def rereadFields (fields : List (String × PlainValue)) : List (String × PlainValue) :=
  fields.map fun f => (f.1, f.2.reread)

theorem excludeNone_reread (fields : List (String × Option PlainValue)) :
    excludeNone (fields.map fun f => (f.1, f.2.map PlainValue.reread)) =
      rereadFields (excludeNone fields) := by
  induction fields with
  | nil => rfl
  | cons f fields ih =>
    obtain ⟨key, v⟩ := f
    cases v with
    | none => exact ih
    | some v => exact congrArg _ ih

theorem Condition.dump_reread (c : Condition) : c.reread.dump = rereadFields c.dump := by
  rw [Condition.dump, Condition.dump, ← excludeNone_reread, Condition.reread]
  simp only [List.map_cons, List.map_nil, Option.map_map]
  rfl

theorem Action.dump_reread (a : Action) : a.reread.dump = rereadFields a.dump := by
  have ht : readText a.type.value = a.type.value :=
    readText_of_isLegal (by cases a.type <;> decide)
  rw [Action.dump, Action.dump, ← excludeNone_reread, Action.reread]
  simp only [List.map_cons, List.map_nil, Option.map_map, Option.map_some, PlainValue.reread, ht]
  rfl

theorem ReadAs.fields {fields : List (String × PlainValue)}
    (h : ∀ f ∈ fields, Toml.isBareKey f.1 = true) :
    ReadAs (Toml.pairsText (fieldPairs fields))
      (Toml.pairsText (fieldPairs (rereadFields fields))) := by
  simp only [Toml.pairsText, fieldPairs, rereadFields, List.map_map]
  exact .intercalate (by decide) fun f hf => .pair (h f hf) f.2.readAs

theorem ReadAs.inlineTable {ps qs : Pairs} {hp : ps.pairs ≠ []} {hq : qs.pairs ≠ []}
    (h : ReadAs (Toml.pairsText ps.pairs) (Toml.pairsText qs.pairs)) :
    ReadAs (Printed.inlineTable ps hp).text (Printed.inlineTable qs hq).text :=
  ((ReadAs.of_not_mem (show '\r' ∉ ['{', ' '] by decide)).append h).append (.of_not_mem (by decide))

theorem bare_of_fieldPairs (ps : Pairs) {fields : List (String × PlainValue)}
    (h : ps.pairs = fieldPairs fields) : ∀ f ∈ fields, Toml.isBareKey f.1 = true := by
  intro f hf
  exact ps.bare (f.1, f.2.printed) (h ▸ List.mem_map_of_mem hf)

theorem Condition.readAs (c : Condition) :
    ReadAs (Printed.inlineTable c.pairs c.pairs_ne_nil).text
      (Printed.inlineTable c.reread.pairs c.reread.pairs_ne_nil).text := by
  have h : c.reread.pairs.pairs = fieldPairs (rereadFields c.dump) := by rw [← c.dump_reread]; rfl
  refine .inlineTable ?_
  rw [h]
  exact .fields (bare_of_fieldPairs c.pairs rfl)

theorem Action.readAs (a : Action) :
    ReadAs (Printed.inlineTable a.pairs a.pairs_ne_nil).text
      (Printed.inlineTable a.reread.pairs a.reread.pairs_ne_nil).text := by
  have h : a.reread.pairs.pairs = fieldPairs (rereadFields a.dump) := by rw [← a.dump_reread]; rfl
  refine .inlineTable ?_
  rw [h]
  exact .fields (bare_of_fieldPairs a.pairs rfl)

theorem Rule.readAs (rule : Rule) :
    ReadAs (Toml.blockText "rule" rule.pairs) (Toml.blockText "rule" rule.reread.pairs) := by
  have hl : List.Forall₂ (fun p q : Pair => ReadAs p.text q.text) rule.pairList
      rule.reread.pairList := by
    have hid : ReadAs (Pair.text ("id", .string rule.id))
        (Pair.text ("id", .string rule.reread.id)) := .pair (by decide) (.quoted _)
    have hde : ReadAs (Pair.text ("description", .string rule.description))
        (Pair.text ("description", .string rule.reread.description)) :=
      .pair (by decide) (.quoted _)
    have hen : ReadAs (Pair.text ("enabled", .boolean rule.enabled))
        (Pair.text ("enabled", .boolean rule.reread.enabled)) :=
      .pair (by decide) (PlainValue.boolean rule.enabled).readAs
    have hwh := ReadAs.pair (show Toml.isBareKey "when" = true by decide) rule.when.readAs
    have hac := ReadAs.pair (show Toml.isBareKey "action" = true by decide) rule.action.readAs
    have he : rule.reread.description = "" ↔ rule.description = "" := readText_eq_empty
    rw [Rule.pairList, Rule.pairList]
    by_cases hd : rule.description = ""
    · rw [if_pos hd, if_pos (he.2 hd)]
      exact .cons hid (.cons hen (.cons hwh (.cons hac .nil)))
    · rw [if_neg hd, if_neg fun h => hd (he.1 h)]
      exact .cons hid (.cons hde (.cons hen (.cons hwh (.cons hac .nil))))
  exact (ReadAs.of_not_mem (show '\r' ∉ "[[rule]]\n".toList by decide)).append (.lines hl)

/-- **The file is read as the document of the rules whose texts are read from a file.** -/
theorem readText_dumpRules (rules : List Rule) : readText (dumpRules rules) =
    String.ofList (Toml.documentText "rule" ((rules.map Rule.reread).map Rule.pairs)) := by
  have h : ReadAs (Toml.documentText "rule" (rules.map Rule.pairs))
      (Toml.documentText "rule" ((rules.map Rule.reread).map Rule.pairs)) := by
    simp only [Toml.documentText, List.map_map]
    exact .intercalate (by decide) fun rule _ => rule.readAs
  have he := h []
  rw [List.append_nil, universalNewlines, List.append_nil] at he
  rw [readText, dumpRules_toList, he]

/-! ## Validating what was written -/

theorem mapM_validateStr : ∀ (ss : List String), (ss.map Value.string).mapM validateStr = some ss
  | [] => rfl
  | s :: ss => by
    rw [List.map_cons, List.mapM_cons, mapM_validateStr ss]
    rfl

theorem validateStrs_strings (ss : List String) :
    validateStrs (PlainValue.strings ss).printed.value = some ss := by
  refine Eq.trans ?_ (mapM_validateStr ss)
  simp only [PlainValue.printed, Printed.array, List.map_map]
  rfl

theorem validateActionType_value (t : ActionType) :
    validateActionType (.string t.value) = some t := by
  cases t <;> decide

/-- A condition is read back from the table it is written as. -/
theorem Condition.validate_table (c : Condition) :
    Condition.validate (.table c.pairs.table) = some c := by
  obtain ⟨always, fromDomainIn, fromIn, localClassifierCategoryIn⟩ := c
  have ha : validateBool (PlainValue.boolean always).printed.value = some always := rfl
  cases fromDomainIn <;> cases fromIn <;> cases localClassifierCategoryIn <;>
    simp [Condition.validate, Condition.pairs, pairsOf, Pairs.table, fieldPairs, Condition.dump,
      excludeNone, Pair.entry, forbidExtra, defaulted, nullable, List.lookup_cons, ha,
      validateStrs_strings]

/-- And so is an action. -/
theorem Action.validate_table (a : Action) : Action.validate (.table a.pairs.table) = some a := by
  obtain ⟨type, mailbox, reason, alertImmediately⟩ := a
  have ht : validateActionType (PlainValue.string type.value).printed.value = some type :=
    validateActionType_value type
  have hs : ∀ s, validateStr (PlainValue.string s).printed.value = some s := fun _ => rfl
  have ha : validateBool (PlainValue.boolean alertImmediately).printed.value =
      some alertImmediately := rfl
  cases mailbox <;> cases reason <;>
    simp [Action.validate, Action.pairs, pairsOf, Pairs.table, fieldPairs, Action.dump, excludeNone,
      Pair.entry, forbidExtra, required, defaulted, nullable, List.lookup_cons, ht, hs, ha]

/-- **A rule is read back from the block it is written as.** -/
theorem Rule.validate_table (rule : Rule) :
    Rule.validate (.table rule.pairs.table) = some rule := by
  obtain ⟨id, description, when, action, enabled⟩ := rule
  have hs : ∀ s, validateStr (Printed.string s).value = some s := fun _ => rfl
  have hb : validateBool (Printed.boolean enabled).value = some enabled := rfl
  have hw : Condition.validate (Printed.inlineTable when.pairs when.pairs_ne_nil).value =
    some when :=
    when.validate_table
  have ha : Action.validate (Printed.inlineTable action.pairs action.pairs_ne_nil).value =
    some action :=
    action.validate_table
  by_cases hd : description = "" <;>
    simp [Rule.validate, Rule.pairs, Rule.pairList, pairsOf, Pairs.table, Pair.entry, forbidExtra,
      required, defaulted, List.lookup_cons, hd, hs, hb, hw, ha]

/-! ## Legal rules -/

/-- The texts of a condition. -/
def Condition.texts (c : Condition) : List String :=
  c.fromDomainIn.getD [] ++ c.fromIn.getD [] ++ c.localClassifierCategoryIn.getD []

/-- The texts of an action. -/
def Action.texts (a : Action) : List String := a.mailbox.toList ++ a.reason.toList

/-- The texts of a rule. -/
def Rule.texts (rule : Rule) : List String :=
  rule.id :: rule.description :: (rule.when.texts ++ rule.action.texts)

/-- No text of the rules has a control character other than a tab. -/
def NoControlCharacters (rules : List Rule) : Prop :=
  ∀ rule ∈ rules, ∀ s ∈ rule.texts, ∀ c ∈ s.toList, isIllegal c = false

instance (rules : List Rule) : Decidable (NoControlCharacters rules) :=
  decidable_of_iff ((rules.all fun rule => rule.texts.all isLegal) = true)
    (by simp [NoControlCharacters, isLegal])

theorem Condition.legal_pairs (c : Condition) : c.pairs.legal = c.texts.all isLegal := by
  obtain ⟨always, fromDomainIn, fromIn, localClassifierCategoryIn⟩ := c
  have hs : Printed.legal ∘ Printed.string = isLegal := rfl
  cases fromDomainIn <;> cases fromIn <;> cases localClassifierCategoryIn <;>
    simp [Condition.pairs, pairsOf, Pairs.legal, fieldPairs, Condition.dump, excludeNone,
      Pair.legal,
      PlainValue.printed, Printed.boolean, Printed.array, Condition.texts, hs]

theorem Action.legal_pairs (a : Action) : a.pairs.legal = a.texts.all isLegal := by
  obtain ⟨type, mailbox, reason, alertImmediately⟩ := a
  have ht : isLegal type.value = true := by cases type <;> decide
  cases mailbox <;> cases reason <;>
    simp [Action.pairs, pairsOf, Pairs.legal, fieldPairs, Action.dump, excludeNone, Pair.legal,
      PlainValue.printed, Printed.boolean, Printed.string, Action.texts, ht]

/-- The block of a rule is legal if all its texts are. -/
theorem Rule.legal_pairs (rule : Rule) : rule.pairs.legal = rule.texts.all isLegal := by
  have hw : (Printed.inlineTable rule.when.pairs rule.when.pairs_ne_nil).legal =
      rule.when.texts.all isLegal := rule.when.legal_pairs
  have ha : (Printed.inlineTable rule.action.pairs rule.action.pairs_ne_nil).legal =
      rule.action.texts.all isLegal := rule.action.legal_pairs
  have he : isLegal "" = true := by decide
  by_cases hd : rule.description = "" <;>
    simp [Rule.pairs, Rule.pairList, pairsOf, Pairs.legal, Pair.legal, Rule.texts, Printed.string,
      Printed.boolean, hd, he, hw, ha]

theorem noControlCharacters_iff (rules : List Rule) :
    NoControlCharacters rules ↔ ((rules.map Rule.pairs).all Pairs.legal) = true := by
  simp [NoControlCharacters, Rule.legal_pairs, isLegal]

theorem Condition.texts_reread (c : Condition) : c.reread.texts = c.texts.map readText := by
  obtain ⟨always, fromDomainIn, fromIn, localClassifierCategoryIn⟩ := c
  cases fromDomainIn <;> cases fromIn <;> cases localClassifierCategoryIn <;>
    simp [Condition.texts, Condition.reread]

theorem Action.texts_reread (a : Action) : a.reread.texts = a.texts.map readText := by
  obtain ⟨type, mailbox, reason, alertImmediately⟩ := a
  cases mailbox <;> cases reason <;> simp [Action.texts, Action.reread]

theorem Rule.texts_reread (rule : Rule) : rule.reread.texts = rule.texts.map readText := by
  simp [Rule.texts, Rule.reread, Condition.texts_reread, Action.texts_reread]

/-- Reading line ends makes no text legal. -/
theorem legal_reread (rules : List Rule) :
    ((rules.map Rule.reread).map Rule.pairs).all Pairs.legal =
      (rules.map Rule.pairs).all Pairs.legal := by
  have h : ∀ rule : Rule, rule.reread.pairs.legal = rule.pairs.legal := by
    intro rule
    rw [Rule.legal_pairs, Rule.legal_pairs, Rule.texts_reread, List.all_map]
    exact congrArg (rule.texts.all ·) (funext isLegal_readText)
  simp only [List.map_map, List.all_map]
  exact congrArg (rules.all ·) (funext h)

theorem map_readText {ss : List String} (h : ∀ s ∈ ss, isLegal s = true) :
    ss.map readText = ss := by
  rw [List.map_congr_left fun s hs => readText_of_isLegal (h s hs), List.map_id']

/-- Legal rules are read as they are. -/
theorem Rule.reread_of_legal {rule : Rule} (h : ∀ s ∈ rule.texts, isLegal s = true) :
    rule.reread = rule := by
  obtain ⟨id, description, ⟨always, fromDomainIn, fromIn, localClassifierCategoryIn⟩,
    ⟨type, mailbox, reason, alertImmediately⟩, enabled⟩ := rule
  simp only [Rule.texts, Condition.texts, Action.texts, List.mem_cons, List.mem_append] at h
  have hlist : ∀ o : Option (List String), (∀ s ∈ o.getD [], isLegal s = true) →
      o.map (List.map readText) = o := by
    intro o ho
    cases o with
    | none => rfl
    | some ss => exact congrArg some (map_readText ho)
  have hopt : ∀ o : Option String, (∀ s ∈ o.toList, isLegal s = true) → o.map readText = o := by
    intro o ho
    cases o with
    | none => rfl
    | some s => exact congrArg some (readText_of_isLegal (ho s (by simp)))
  simp only [Rule.reread, Condition.reread, Action.reread]
  rw [readText_of_isLegal (h id (.inl rfl)), readText_of_isLegal (h description (.inr (.inl rfl))),
    hlist _ fun s hs => h s (.inr (.inr (.inl (.inl (.inl hs))))),
    hlist _ fun s hs => h s (.inr (.inr (.inl (.inl (.inr hs))))),
    hlist _ fun s hs => h s (.inr (.inr (.inl (.inr hs)))),
    hopt _ fun s hs => h s (.inr (.inr (.inr (.inl hs)))),
    hopt _ fun s hs => h s (.inr (.inr (.inr (.inr hs))))]

/-! ## Loading what was written -/

/-- **What `load_rules` makes of the file that `dump_rules` writes**: the same rules if none of
their texts has a control character, and a document that is not TOML otherwise. -/
theorem loadRules_dumpRules (rules : List Rule) (hd : (rules.map Rule.id).Nodup) :
    loadRules (some (dumpRules rules)) =
      if NoControlCharacters rules then .ok rules else .error (.invalidToml .illegalCharacter) := by
  have hr : '\r' ∉ Toml.documentText "rule" ((rules.map Rule.reread).map Rule.pairs) := by
    have h := congrArg String.toList (readText_dumpRules rules)
    rw [String.toList_ofList, readText, String.toList_ofList] at h
    rw [← h]
    exact not_mem_universalNewlines _
  have hl := Toml.loads_document (by decide) _ hr
  rw [Toml.loads] at hl
  rw [loadRules, loadRulesWithin, readText_dumpRules, hl, legal_reread]
  by_cases hc : NoControlCharacters rules
  · have hs : rules.map Rule.reread = rules := by
      refine (List.map_congr_left fun rule hm => ?_).trans (List.map_id' rules)
      refine Rule.reread_of_legal fun s hs => List.all_eq_true.2 fun c hcs => ?_
      rw [hc rule hm s hs c hcs]
      rfl
    rw [(noControlCharacters_iff rules).1 hc, if_pos hc, hs]
    have he : ruleEntries (Toml.documentTable "rule" ((rules.map Rule.pairs).map Pairs.table)) =
        some (rules.map fun rule => .table rule.pairs.table) := by
      cases rules with
      | nil => rfl
      | cons rule rules => simp [ruleEntries, Toml.documentTable]
    simp only [Toml.outcome_true, he]
    rw [loadEntries_of_validate _ id Rule.validate_table rules 0 [] hd fun _ _ => List.not_mem_nil,
      List.map_id]
  · have hf : (rules.map Rule.pairs).all Pairs.legal = false :=
      Bool.eq_false_iff.2 fun h => hc ((noControlCharacters_iff rules).2 h)
    rw [hf, if_neg hc]
    rfl

theorem setFlag_texts (ruleId : String) (enabled : Bool) (rules : List Rule) :
    (setFlag ruleId enabled rules).map Rule.texts = rules.map Rule.texts :=
  setFlag_map (fun _ _ => rfl) ruleId enabled rules

theorem noControlCharacters_congr {rules rules' : List Rule}
    (h : rules'.map Rule.texts = rules.map Rule.texts) :
    NoControlCharacters rules' ↔ NoControlCharacters rules := by
  have hall : ∀ rs : List Rule, NoControlCharacters rs ↔
      ∀ texts ∈ rs.map Rule.texts, ∀ s ∈ texts, ∀ c ∈ s.toList, isIllegal c = false := by
    intro rs
    rw [List.forall_mem_map]
    rfl
  rw [hall, hall, h]

/-- **`load_rules` undoes `dump_rules`, and a flag is all that `_set_enabled` changes, exactly on
rules without control characters** (other than tabs). -/
theorem dumpRules_undone_iff (rules : List Rule) (h : (rules.map Rule.id).Nodup) :
    (loadRules (some (dumpRules rules)) = .ok rules ↔ NoControlCharacters rules) ∧
      ∀ (file : Option String) (ruleId : String) (enabled : Bool), loadRules file = .ok rules →
        (∃ rule ∈ rules, rule.id = ruleId) →
        ∃ r, setEnabled file ruleId enabled = .ok r ∧
          (loadRules (some r.file) = .ok (setFlag ruleId enabled rules) ↔
            NoControlCharacters rules) := by
  have hiff : ∀ {rs : List Rule}, (rs.map Rule.id).Nodup →
      (loadRules (some (dumpRules rs)) = .ok rs ↔ NoControlCharacters rs) := by
    intro rs hd
    rw [loadRules_dumpRules rs hd]
    by_cases hc : NoControlCharacters rs
    · simp [hc]
    · simp [hc]
  refine ⟨hiff h, fun file ruleId enabled hf hr => ?_⟩
  obtain ⟨r, hs, he⟩ := setEnabled_of_loadRules hf hr enabled
  refine ⟨r, hs, ?_⟩
  rw [he, hiff (by rw [setFlag_ids]; exact loadRules_nodup hf),
    noControlCharacters_congr (setFlag_texts _ _ _)]

/-- A rule that a file can spell and the writer cannot: its description has two lines. -/
def twoLineRule : Rule :=
  { id := "vip", description := "a\nb", when := { always := true }, action := { type := .ignore } }

/-- How a file spells it. -/
def twoLineFile : String :=
  "[[rule]]\nid = \"vip\"\ndescription = \"a\\nb\"\nwhen = \x7b always = true \x7d\n" ++
    "action = \x7b type = \"ignore\" \x7d\n"

/-- A tab, quotes and backslashes survive. -/
theorem dumpRules_undone_iff_plain :
    let rules := [{ twoLineRule with description := "a\tb" },
      { twoLineRule with id := "\"\\\"", description := "" }]
    loadRules (some (dumpRules rules)) = .ok rules ∧
      ∃ r, setEnabled (some (dumpRules rules)) "vip" false = .ok r ∧
        loadRules (some r.file) = .ok (setFlag "vip" false rules) := by
  intro rules
  have h := dumpRules_undone_iff rules (by decide)
  have hc : NoControlCharacters rules := by decide
  obtain ⟨r, hs, hr⟩ := h.2 _ "vip" false (h.1.2 hc) ⟨_, List.mem_cons_self, rfl⟩
  exact ⟨h.1.2 hc, r, hs, hr.2 hc⟩

/-- **A rules file that loads is left unreadable by disabling a rule.** -/
theorem disabling_breaks_file :
    loadRules (some twoLineFile) = .ok [twoLineRule] ∧
      loadRules (some (dumpRules [twoLineRule])) = .error (.invalidToml .illegalCharacter) ∧
      ∃ r, setEnabled (some twoLineFile) "vip" false = .ok r ∧
        loadRules (some r.file) = .error (.invalidToml .illegalCharacter) := by
  have hf : loadRules (some twoLineFile) = .ok [twoLineRule] := by decide +kernel
  obtain ⟨r, hs, he⟩ := setEnabled_of_loadRules hf ⟨_, List.mem_cons_self, rfl⟩ false
  refine ⟨hf, ?_, r, hs, ?_⟩
  · exact (loadRules_dumpRules _ (by decide)).trans (if_neg (by decide))
  · rw [he]
    exact (loadRules_dumpRules _ (by decide)).trans (if_neg (by decide))

end Spork
