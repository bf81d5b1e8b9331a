import Spork.Json
import Spork.Rules.Loader
import Spork.Rules.Writer

/-!
# Enabling and disabling a rule

`cli/commands/rules.py`: `_set_enabled`, which rewrites the whole rules file for one flag.
-/

set_option autoImplicit false

namespace Spork

/-- How `_set_enabled` ends before it writes anything. -/
inductive SetEnabledFailure where
  | load (e : RulesLoadFailure)
  | noSuchRule (ruleId : String)
  deriving DecidableEq, Repr

/-- What `_set_enabled` leaves behind: the rules file, and the entry of the control plane's audit
log that it writes afterwards. -/
structure SetEnabled where
  file : String
  event : String
  detailJson : String

/-- `rule.model_copy(update={"enabled": enabled})` for one rule of the list. -/
def setFlag (ruleId : String) (enabled : Bool) (rules : List Rule) : List Rule :=
  rules.map fun rule => if rule.id = ruleId then { rule with enabled := enabled } else rule

/-- `_set_enabled`. -/
def setEnabled (file : Option String) (ruleId : String) (enabled : Bool) :
    Except SetEnabledFailure SetEnabled :=
  match loadRules file with
  | .error e => .error (.load e)
  | .ok rules =>
    if rules.any fun rule => rule.id = ruleId then
      .ok
        { file := dumpRules (setFlag ruleId enabled rules)
          event := if enabled then "rules_enable" else "rules_disable"
          detailJson := jsonObject [("rule_id", jsonString ruleId)] }
    else .error (.noSuchRule ruleId)

/-- What does not look at the flags does not see the difference. -/
theorem setFlag_map {β : Type} {f : Rule → β}
    (hf : ∀ (rule : Rule) (flag : Bool), f { rule with enabled := flag } = f rule) (ruleId : String)
    (enabled : Bool) (rules : List Rule) : (setFlag ruleId enabled rules).map f = rules.map f := by
  rw [setFlag, List.map_map]
  refine List.map_congr_left fun rule _ => ?_
  rw [Function.comp_apply]
  split
  · exact hf rule enabled
  · rfl

theorem setFlag_ids (ruleId : String) (enabled : Bool) (rules : List Rule) :
    (setFlag ruleId enabled rules).map Rule.id = rules.map Rule.id :=
  setFlag_map (fun _ _ => rfl) ruleId enabled rules

/-- On a rules file that loads and has the rule, the file is rewritten from its rules. -/
theorem setEnabled_of_loadRules {file : Option String} {rules : List Rule}
    (h : loadRules file = .ok rules) {ruleId : String} (hr : ∃ rule ∈ rules, rule.id = ruleId)
    (enabled : Bool) : ∃ r, setEnabled file ruleId enabled = .ok r ∧
      r.file = dumpRules (setFlag ruleId enabled rules) := by
  have ha : (rules.any fun rule => rule.id = ruleId) = true := by simpa using hr
  rw [setEnabled, h]
  simp only [ha, if_true]
  exact ⟨_, rfl, rfl⟩

end Spork
