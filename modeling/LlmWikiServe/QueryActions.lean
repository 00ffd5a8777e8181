import LlmWikiServe.InstanceRecords
import LlmWikiServe.LogRoots
import LlmWikiServe.Service

/-!
# Advice on the next retrieval

A provider outside the server may be asked what a client should do after a query.  It is told the
shape of the answer and a redacted query, and what it replies chooses one of five actions; the
pages and the query the advice names are those of the answer itself.
-/

namespace LlmWikiServe.QueryActions

open Pattern IoLog ManagedContext Instances

def maxActionTargets : Nat := 3

inductive RetrievalAction where
  | stop
  | read
  | search
  | graph
  | askClarification
  deriving DecidableEq

def RetrievalAction.text : RetrievalAction → Text
  | .stop => "stop"
  | .read => "read"
  | .search => "search"
  | .graph => "graph"
  | .askClarification => "ask_clarification"

inductive GuidanceStatus where
  | ok
  | unconfigured
  | failed
  deriving DecidableEq

structure RetrievalActionGuidance where
  status : GuidanceStatus
  recommendedAction : Option RetrievalAction := none
  confidence : Option PyFloat := none
  evidenceSufficiencyScore : Option PyFloat := none
  readPageIds : List Text := []
  searchQueries : List Text := []
  graphSeeds : List Text := []
  reasons : List Text := []
  diagnostics : List Text := []

structure JudgedContext (R : Type) extends ContextPack R where
  retrievalActionGuidance : Option RetrievalActionGuidance

/-- A configuration that was validated; an empty key is none. -/
structure QueryActionJudgeConfig where
  enabled : Bool
  model : Text
  apiKey : Text

/-! ## What the provider is told -/

section Payload

/-- `_EMAIL_RE` -/
def emailPattern [Unicode] : Pattern :=
  let isDomainChar (char : Char) : Bool :=
    isFoldedLetter char || isAsciiDigit char || char = '.' || char = '-'
  Pattern.all
    [wordBoundary,
      plus (.one fun char => isDomainChar char || char ∈ ['_', '%', '+']), Pattern.char '@',
      plus (.one isDomainChar), Pattern.char '.', atLeast (.one isFoldedLetter) 2, wordBoundary]

def redactedEmail : Text := "[REDACTED_EMAIL]"

/-- `redact_provider_string(value, local_roots)` -/
def redactProviderString [Unicode] (localRoots : List Text) (value : Text) : Text :=
  Pattern.sub emailPattern (fun _ => redactedEmail) (redactString localRoots value)

/-- `tokenize_for_overlap(value)` -/
def tokenizeForOverlap [Unicode] (value : Text) : List Text :=
  (Pattern.findAll (plus (.one fun char => Text.isWord char || isHangul char)) value).map
    fun found => Text.lower found.text

/-- `path_depth(path)` -/
def pathDepth (path : Text) : Nat :=
  let slashed := path.map fun char => if char = '\\' then '/' else char
  ((Text.splitOn '/' (Text.stripBy (· = '/') slashed)).filter fun part => part ≠ []).length

section Items

variable {R : Type}

namespace Item

def title : ContextSearchResult R → Text
  | .full result => result.title
  | .projection projection => projection.title

def pageId : ContextSearchResult R → Text
  | .full result => result.pageId
  | .projection projection => projection.pageId

def path : ContextSearchResult R → Text
  | .full result => result.path
  | .projection projection => projection.path

def snippet : ContextSearchResult R → Text
  | .full result => result.snippet
  | .projection projection => projection.snippet

def score : ContextSearchResult R → R
  | .full result => result.score
  | .projection projection => projection.score

def role : ContextSearchResult R → Text
  | .full result => result.role.text
  | .projection projection => projection.role

def route : ContextSearchResult R → Text
  | .full result => result.route
  | .projection projection => projection.route

def sourceRefs : ContextSearchResult R → List Text
  | .full result => result.sourceRefs
  | .projection projection => projection.sourceRefs

end Item

variable [Floats R]

/-- `score_bucket(score)` -/
def scoreBucket (score : R) : Text :=
  if Floats.le score (Floats.ofRat 0) then "zero"
  else if Floats.lt score (Floats.ofRat 1) then "low"
  else if Floats.lt score (Floats.ofRat 3) then "medium"
  else if Floats.lt score (Floats.ofRat 8) then "high"
  else "very_high"

variable [Unicode]

/-- `query_overlap_ratio(query, *texts)` -/
def queryOverlapRatio (query : Text) (texts : List Text) : R :=
  let queryTokens := (tokenizeForOverlap query).dedup
  if queryTokens = [] then Floats.ofRat 0
  else
    let textTokens := texts.flatMap tokenizeForOverlap
    let shared := queryTokens.filter fun token => token ∈ textTokens
    Floats.round 3 (Floats.div (Floats.ofRat shared.length) (Floats.ofRat queryTokens.length))

/-- `evidence_structural_summary(item, index=…, query=…)` -/
def evidenceStructuralSummary (query : Text) (item : ContextSearchResult R) (index : Nat) :
    Json R :=
  .object
    [("ordinal", .int index), ("role", .string (Item.role item)),
      ("route", .string (Item.route item)),
      ("score_bucket", .string (scoreBucket (Item.score item))),
      ("snippet_character_count", .int (Item.snippet item).length),
      ("source_ref_count", .int (Item.sourceRefs item).length),
      ("path_depth", .int (pathDepth (Item.path item))),
      ("query_overlap_ratio",
        .float (queryOverlapRatio query [Item.title item, Item.snippet item]))]

def summaries (query : Text) (items : List (ContextSearchResult R)) : List (Json R) :=
  (items.take maxActionTargets).zipIdx.map fun (item, index) =>
    evidenceStructuralSummary query item index

end Items

def actionCriteria : List (Text × Text) :=
  [("stop",
      ("The current structural evidence appears sufficient; no immediate " : Text) ++
        "follow-up retrieval is needed."),
    ("read",
      ("One or more returned evidence pages should be read for deeper " : Text) ++
        "support before answering."),
    ("search",
      ("A refined lexical, vector, or hybrid search is likely more useful " : Text) ++
        "than reading the current evidence."),
    ("graph",
      ("Relationship structure, dependencies, source refs, tags, or links " : Text) ++
        "are likely important enough to inspect graph data."),
    ("ask_clarification",
      ("The query or structural evidence is too ambiguous for a useful " : Text) ++
        "next retrieval action.")]

/-- `query_action_judgment_questions()` -/
def queryActionJudgmentQuestions (R : Type) : Json R :=
  .object
    [("next_action", .object
        [("type", .string "choice"),
          ("instructions", .string
            (("Choose the next read-only LLMWiki retrieval action after this masked " : Text) ++
              "query result.")),
          ("criteria", .object (actionCriteria.map fun entry => (entry.1, .string entry.2)))]),
      ("evidence_sufficiency_score", .object
        [("type", .string "score"),
          ("instructions", .string
            (("Score whether the masked LLMWiki query result appears sufficient " : Text) ++
              "without another source-tool action.")),
          ("criteria", .array
            [.string (("0 means the result is absent, weak, contradictory, or needs " : Text) ++
                "more retrieval."),
              .string (("1 means the result is likely sufficient to stop retrieval for " : Text) ++
                "now.")])]),
      ("graph_context_useful", .object
        [("type", .string "bool"),
          ("instructions", .string
            (("Does the structural state indicate graph context may improve the next " : Text) ++
              "step?")),
          ("criteria", .object
            [("true", .string
                (("Graph counts, relation distribution, or source spread suggest graph " : Text) ++
                  "inspection may help.")),
              ("false", .string
                "Graph context appears unnecessary or uninformative for this query.")])])]

variable {R : Type} [Floats R] [Unicode]

/-- `build_system_one_payload(context, config=…, root=…)` -/
def buildSystemOnePayload (config : QueryActionJudgeConfig) (localRoots : List Text)
    (context : ContextPack R) : Json R :=
  let state : List (Text × Json R) :=
    [("schema_version", .string "llmwiki.query_action_judgment.state.v1"),
      ("gate", .string "query_action_guidance"), ("data_minimized", .bool true),
      ("query", .object
        [("redacted_text", .string (redactProviderString localRoots context.query)),
          ("character_count", .int context.query.length),
          ("token_count", .int (tokenizeForOverlap context.query).length)]),
      ("result", .object
        [("answerable", .bool context.answerable),
          ("evidence_count", .int context.evidence.length),
          ("orientation_count", .int context.orientation.length),
          ("limitation_count", .int context.limitations.length),
          ("graph_node_count", .int context.graph.nodes.length),
          ("graph_edge_count", .int context.graph.edges.length),
          ("retrieval_guidance_present", .bool true)]),
      ("evidence", .array (summaries context.query context.evidence)),
      ("orientation", .array (summaries context.query context.orientation)),
      ("allowed_actions", .array
        [.string "stop", .string "read", .string "search", .string "graph",
          .string "ask_clarification"]),
      ("omitted_fields", .array
        [.string "raw_page_text", .string "raw_snippet_text", .string "page_id",
          .string "source_ref_labels", .string "raw_paths", .string "local_roots"])]
  .object
    [("model", .string config.model), ("state", .object state),
      ("questions", queryActionJudgmentQuestions R)]

end Payload

/-! ## What the provider answers -/

section Answer

abbrev Members := List (Text × Json PyFloat)

/-- `dict_value(value)` -/
def dictValue : Json PyFloat → Members
  | .object members => members
  | _ => []

def valueOf (members : Members) (name : Text) : Json PyFloat :=
  (Keyed.get? members name).getD .null

/-- `answer_choice(answer)` -/
def answerChoice (answer : Members) : Option Text :=
  [("choice" : Text), "answer", "value"].findSome? fun key =>
    match valueOf answer key with
    | .string text => some text
    | _ => none

/-- The aliases of `normalize_action`. -/
def actionAliases : List (Text × RetrievalAction) :=
  [("none", .stop), ("stop", .stop), ("done", .stop), ("read", .read), ("read_page", .read),
    ("search", .search), ("query", .search), ("refine_search", .search), ("graph", .graph),
    ("inspect_graph", .graph), ("expand_neighbors", .graph), ("graph_neighbors", .graph),
    ("ask_clarification", .askClarification), ("clarify", .askClarification)]

/-- `normalize_action(value)` -/
def normalizeAction [Unicode] (value : Option Text) : Option RetrievalAction :=
  let normalized := (Text.lower (Text.strip (value.getD []))).map fun char =>
    if char = '-' then '_' else char
  Keyed.get? actionAliases normalized

/-- `clamp_score(value)`; a NaN is not below one. -/
def clampScore (value : PyFloat) : PyFloat :=
  let capped := if value.lt (.finite 1) then value else .finite 1
  if (PyFloat.finite 0).lt capped then capped else .finite 0

/-- `float(value)`, absent where it raises: an integer may be beyond the range of floats. -/
def floatOfInt (value : Int) : Option PyFloat :=
  if value.natAbs < 2 ^ 1024 - 2 ^ 970 then some (.finite value) else none

/-- `numeric_answer(answer, key=…)`, absent where it raises. -/
def numericAnswer [Numbers] (answer : Members) (key : Text) : Option (Option PyFloat) :=
  match valueOf answer key with
  | .bool value => some (some (.finite (if value then 1 else 0)))
  | .int value => (floatOfInt value).map fun number => some (clampScore number)
  | .float value => some (some (clampScore value))
  | .string text => some ((Numbers.floatOfText text).map clampScore)
  | _ => some none

variable {R : Type}

/-- The page of an item is named once, if it has an id. -/
def addTarget (pageIds : List Text) (item : ContextSearchResult R) : List Text :=
  if Item.pageId item ≠ [] ∧ Item.pageId item ∉ pageIds then pageIds ++ [Item.pageId item]
  else pageIds

/-- `top_page_ids(items)` -/
def topPageIds (items : List (ContextSearchResult R)) : List Text :=
  go [] items
where
  go (pageIds : List Text) : List (ContextSearchResult R) → List Text
    | [] => pageIds
    | item :: items =>
        if maxActionTargets ≤ (addTarget pageIds item).length then addTarget pageIds item
        else go (addTarget pageIds item) items

def reasonOf (action : RetrievalAction) : Text :=
  ("System-One selected " : Text) ++ action.text ++ " from masked query-action judgment."

variable [Unicode] [Numbers]

/-- `guidance_from_provider_response(context, response)`, absent where it raises. -/
def guidanceFromProviderResponse (context : ContextPack R) (response : Members) :
    Option RetrievalActionGuidance := do
  let answers := dictValue (valueOf response "answers")
  let nextActionAnswer := dictValue (valueOf answers "next_action")
  let action ← normalizeAction (answerChoice nextActionAnswer)
  let sufficiency ←
    numericAnswer (dictValue (valueOf answers "evidence_sufficiency_score")) "score"
  let confidence ← numericAnswer nextActionAnswer "confidence"
  let targets := topPageIds context.evidence
  return {
    status := .ok
    recommendedAction := some action
    confidence
    evidenceSufficiencyScore := sufficiency
    readPageIds := if action = .read then targets else []
    searchQueries := if action = .search then [context.query] else []
    graphSeeds := if action = .graph then targets else []
    reasons := [reasonOf action] }

/-- `apply_query_action_judgment(context, config=…, root=…)`, the provider answering each payload or
failing. -/
def applyQueryActionJudgment [Floats R] (config : QueryActionJudgeConfig) (localRoots : List Text)
    (provider : Json R → Option Members) (context : ContextPack R) : JudgedContext R :=
  if !config.enabled then { context with retrievalActionGuidance := none }
  else if config.apiKey = [] then
    { context with
      retrievalActionGuidance :=
        some { status := .unconfigured, diagnostics := ["missing_api_key"] } }
  else
    let guidance :=
      ((provider (buildSystemOnePayload config localRoots context)).bind fun response =>
        guidanceFromProviderResponse context response).getD
          { status := .failed, diagnostics := ["provider_failed"] }
    { context with retrievalActionGuidance := some guidance }

end Answer

/-! ## Advice stays within the answer -/

section Contained

variable {R : Type}

/-- Page ids that advice may name. -/
structure Targets (evidence : List (ContextSearchResult R)) (pageIds : List Text) : Prop where
  nodup : pageIds.Nodup
  few : pageIds.length ≤ maxActionTargets
  known : ∀ pageId ∈ pageIds, pageId ≠ [] ∧ ∃ item ∈ evidence, Item.pageId item = pageId

theorem Targets.nil (evidence : List (ContextSearchResult R)) : Targets evidence [] where
  nodup := List.nodup_nil
  few := Nat.zero_le _
  known _ among := absurd among List.not_mem_nil

theorem targets_addTarget {evidence : List (ContextSearchResult R)} {pageIds : List Text}
    {item : ContextSearchResult R} (among : item ∈ evidence) (targets : Targets evidence pageIds)
    (room : pageIds.length < maxActionTargets) : Targets evidence (addTarget pageIds item) := by
  unfold addTarget
  split_ifs with new
  · obtain ⟨named, fresh⟩ := new
    constructor
    · rw [List.nodup_append]
      refine ⟨targets.nodup, List.nodup_singleton _, ?_⟩
      rintro known knownIn other single rfl
      rw [List.mem_singleton] at single
      exact fresh (single ▸ knownIn)
    · rw [List.length_append, List.length_singleton]
      exact room
    · intro pageId pageIdIn
      rcases List.mem_append.mp pageIdIn with known | single
      · exact targets.known pageId known
      · rw [List.mem_singleton] at single
        rw [single]
        exact ⟨named, item, among, rfl⟩
  · exact targets

theorem targets_go {evidence items : List (ContextSearchResult R)} {pageIds : List Text}
    (sub : ∀ item ∈ items, item ∈ evidence) (targets : Targets evidence pageIds)
    (room : pageIds.length < maxActionTargets) :
    Targets evidence (topPageIds.go pageIds items) := by
  induction items generalizing pageIds with
  | nil => exact targets
  | cons item items inductionHypothesis =>
      obtain ⟨here, later⟩ := List.forall_mem_cons.mp sub
      have next := targets_addTarget here targets room
      rw [topPageIds.go]
      split_ifs with full
      · exact next
      · exact inductionHypothesis later next (not_le.mp full)

theorem targets_topPageIds (evidence : List (ContextSearchResult R)) :
    Targets evidence (topPageIds evidence) :=
  targets_go (fun _ among => among) (Targets.nil evidence) (by decide)

def IsScore (value : PyFloat) : Prop :=
  ∃ number : ℚ, 0 ≤ number ∧ number ≤ 1 ∧ value = .finite number

theorem isScore_clampScore (value : PyFloat) : IsScore (clampScore value) := by
  cases value with
  | finite number =>
      by_cases below : number < 1
      · have clamped : clampScore (.finite number) =
            if 0 < number then .finite number else .finite 0 := by
          simp [clampScore, PyFloat.lt, below]
        rw [clamped]
        split_ifs with positive
        · exact ⟨number, positive.le, below.le, rfl⟩
        · exact ⟨0, le_refl _, zero_le_one, rfl⟩
      · exact ⟨1, zero_le_one, le_refl _, by simp [clampScore, PyFloat.lt, below]⟩
  | inf => exact ⟨1, zero_le_one, le_refl _, by simp [clampScore, PyFloat.lt]⟩
  | negInf => exact ⟨0, le_refl _, zero_le_one, by simp [clampScore, PyFloat.lt]⟩
  | nan => exact ⟨1, zero_le_one, le_refl _, by simp [clampScore, PyFloat.lt]⟩

theorem isScore_numericAnswer [Numbers] {answer : Members} {key : Text} {given : Option PyFloat}
    (read : numericAnswer answer key = some given) : ∀ score ∈ given, IsScore score := by
  rintro score rfl
  unfold numericAnswer at read
  split at read
  next value _ =>
    cases read
    cases value
    · exact ⟨0, le_refl _, zero_le_one, rfl⟩
    · exact ⟨1, zero_le_one, le_refl _, rfl⟩
  · obtain ⟨number, -, same⟩ := Option.map_eq_some_iff.mp read
    cases same
    exact isScore_clampScore _
  · cases read
    exact isScore_clampScore _
  · obtain ⟨number, -, rfl⟩ := Option.map_eq_some_iff.mp (Option.some.inj read)
    exact isScore_clampScore _
  · cases read

/-- Advice that names nothing but what the answer has. -/
structure Contained (context : ContextPack R) (guidance : RetrievalActionGuidance) : Prop where
  readPageIds : Targets context.evidence guidance.readPageIds
  graphSeeds : Targets context.evidence guidance.graphSeeds
  searchQueries : ∀ query ∈ guidance.searchQueries, query = context.query
  reads : guidance.readPageIds ≠ [] → guidance.recommendedAction = some .read
  graphs : guidance.graphSeeds ≠ [] → guidance.recommendedAction = some .graph
  searches : guidance.searchQueries ≠ [] → guidance.recommendedAction = some .search
  confidence : ∀ score ∈ guidance.confidence, IsScore score
  sufficiency : ∀ score ∈ guidance.evidenceSufficiencyScore, IsScore score
  reasons : ∀ reason ∈ guidance.reasons, ∃ action, guidance.recommendedAction = some action ∧
    reason = reasonOf action
  diagnostics : ∀ diagnostic ∈ guidance.diagnostics,
    diagnostic ∈ [("missing_api_key" : Text), "provider_failed"]
  status : guidance.status = .ok ↔ guidance.recommendedAction.isSome

theorem contained_diagnostic (context : ContextPack R) {status : GuidanceStatus}
    (failed : status ≠ .ok) {diagnostic : Text}
    (known : diagnostic ∈ [("missing_api_key" : Text), "provider_failed"]) :
    Contained context { status, diagnostics := [diagnostic] } where
  readPageIds := .nil _
  graphSeeds := .nil _
  searchQueries _ among := absurd among List.not_mem_nil
  reads some_ := absurd rfl some_
  graphs some_ := absurd rfl some_
  searches some_ := absurd rfl some_
  confidence _ given := absurd given (Option.not_mem_none _)
  sufficiency _ given := absurd given (Option.not_mem_none _)
  reasons _ among := absurd among List.not_mem_nil
  diagnostics other among := List.mem_singleton.mp among ▸ known
  status := iff_of_false failed (by simp)

theorem contained_response [Unicode] [Numbers] {context : ContextPack R} {response : Members}
    {guidance : RetrievalActionGuidance}
    (advised : guidanceFromProviderResponse context response = some guidance) :
    Contained context guidance := by
  obtain ⟨action, -, sufficiency, sufficient, confidence, confident, rfl⟩ :
      ∃ action, normalizeAction _ = some action ∧
        ∃ sufficiency, numericAnswer _ _ = some sufficiency ∧ ∃ confidence, numericAnswer _ _ = some confidence ∧ _ = guidance := by
    simpa only [guidanceFromProviderResponse, Option.bind_eq_bind, Option.bind_eq_some_iff,
      Option.pure_def, Option.some.injEq] using advised
  have targets (wanted : RetrievalAction) : Targets context.evidence
      (if action = wanted then topPageIds context.evidence else []) := by
    split_ifs
    · exact targets_topPageIds _
    · exact .nil _
  have chosen {wanted : RetrievalAction} {names : List Text}
      (some_ : (if action = wanted then names else []) ≠ []) : some action = some wanted := by
    split_ifs at some_ with same
    · rw [same]
    · exact absurd rfl some_
  refine ⟨targets .read, targets .graph, ?_, chosen, chosen, chosen, ?_, ?_, ?_, ?_, ?_⟩
  · intro query among
    dsimp only at among
    split_ifs at among
    · exact List.mem_singleton.mp among
    · exact absurd among List.not_mem_nil
  · exact isScore_numericAnswer confident
  · exact isScore_numericAnswer sufficient
  · intro reason among
    exact ⟨action, rfl, List.mem_singleton.mp among⟩
  · exact fun _ among => absurd among List.not_mem_nil
  · exact iff_of_true rfl rfl

/-- Whatever the provider answers, the context is as it was, and the advice names only pages of the
evidence, at most three and each once, and the query, for the action it recommends. -/
theorem judgment_contained [Unicode] [Numbers] [Floats R] (config : QueryActionJudgeConfig)
    (localRoots : List Text) (provider : Json R → Option Members) (context : ContextPack R) :
    (applyQueryActionJudgment config localRoots provider context).toContextPack = context ∧
      ((applyQueryActionJudgment config localRoots provider context).retrievalActionGuidance =
        none ↔ config.enabled = false) ∧
      ∀ guidance ∈
        (applyQueryActionJudgment config localRoots provider context).retrievalActionGuidance,
          Contained context guidance := by
  unfold applyQueryActionJudgment
  cases enabled : config.enabled with
  | false => exact ⟨rfl, by simp, fun _ given => absurd given (Option.not_mem_none _)⟩
  | true =>
      rw [if_neg (by decide)]
      split_ifs with unconfigured
      · refine ⟨rfl, by simp, ?_⟩
        rintro guidance ⟨⟩
        exact contained_diagnostic context (by decide) (by decide)
      · refine ⟨rfl, by simp, ?_⟩
        rintro guidance ⟨⟩
        generalize provider (buildSystemOnePayload config localRoots context) = reply
        cases advised : reply.bind fun response =>
          guidanceFromProviderResponse context response with
        | none => exact contained_diagnostic context (by decide) (by decide)
        | some guidance =>
            obtain ⟨response, _, advised⟩ := Option.bind_eq_some_iff.mp advised
            exact contained_response advised

end Contained

/-! ## What leaves the server -/

section Masked

open Rewriting

variable {R : Type} [Floats R] [Unicode]

omit [Floats R] [Unicode] in
theorem mem_itemStrings {items : List (Json R)} {text : Text} :
    text ∈ itemStrings items ↔ ∃ item ∈ items, text ∈ strings item := by
  induction items with
  | nil => simp [itemStrings]
  | cons item items inductionHypothesis =>
      simp only [itemStrings, List.mem_append, inductionHypothesis, List.mem_cons, exists_eq_or_imp]

/-- The names of a summary's members, and the buckets of its score. -/
def summaryTexts : List Text :=
  [("ordinal" : Text), "role", "route", "score_bucket", "snippet_character_count",
    "source_ref_count", "path_depth", "query_overlap_ratio", "zero", "low", "medium", "high",
    "very_high"]

omit [Unicode] in
theorem scoreBucket_mem (score : R) : scoreBucket score ∈ summaryTexts := by
  unfold scoreBucket
  split_ifs <;> decide

theorem strings_summary (query : Text) (item : ContextSearchResult R) (index : Nat) :
    strings (evidenceStructuralSummary query item index) =
      [("ordinal" : Text), "role", Item.role item, "route", Item.route item, "score_bucket",
        scoreBucket (Item.score item), "snippet_character_count", "source_ref_count", "path_depth",
        "query_overlap_ratio"] := rfl

theorem mem_strings_summaries {query text : Text} {items : List (ContextSearchResult R)}
    (among : text ∈ itemStrings (summaries query items)) :
    text ∈ summaryTexts ∨ ∃ item ∈ items, text = Item.role item ∨ text = Item.route item := by
  obtain ⟨summary, summaryIn, textIn⟩ := mem_itemStrings.mp among
  obtain ⟨⟨item, index⟩, itemIn, rfl⟩ := List.mem_map.mp summaryIn
  have known : item ∈ items := List.mem_of_mem_take (List.fst_mem_of_mem_zipIdx itemIn)
  dsimp only at textIn
  rw [strings_summary] at textIn
  simp only [List.mem_cons, List.not_mem_nil, or_false] at textIn
  rcases textIn with rfl | rfl | role | rfl | route | rfl | bucket | rfl | rfl | rfl | rfl
  case inr.inr.inl => exact .inr ⟨item, known, .inl role⟩
  case inr.inr.inr.inr.inl => exact .inr ⟨item, known, .inr route⟩
  case inr.inr.inr.inr.inr.inr.inl => exact .inl (bucket ▸ scoreBucket_mem _)
  all_goals exact .inl (by decide)

/-- The texts of a state before the query. -/
def gateTexts : List Text :=
  [("state" : Text), "schema_version", "llmwiki.query_action_judgment.state.v1", "gate",
    "query_action_guidance", "data_minimized", "query", "redacted_text"]

def countTexts : List Text :=
  [("character_count" : Text), "token_count", "result", "answerable", "evidence_count",
    "orientation_count", "limitation_count", "graph_node_count", "graph_edge_count",
    "retrieval_guidance_present", "evidence"]

def closingTexts : List Text :=
  [("allowed_actions" : Text), "stop", "read", "search", "graph", "ask_clarification",
    "omitted_fields", "raw_page_text", "raw_snippet_text", "page_id", "source_ref_labels",
    "raw_paths", "local_roots"]

def payloadTexts (R : Type) : List Text :=
  [("model" : Text), "orientation", "questions"] ++ gateTexts ++ countTexts ++ closingTexts ++
    summaryTexts ++ strings (queryActionJudgmentQuestions R)

theorem strings_payload (config : QueryActionJudgeConfig) (localRoots : List Text)
    (context : ContextPack R) :
    strings (buildSystemOnePayload config localRoots context) =
      ("model" : Text) :: config.model :: (gateTexts ++
        redactProviderString localRoots context.query :: (countTexts ++
          ((itemStrings (summaries context.query context.evidence) ++
            (("orientation" : Text) ::
              (itemStrings (summaries context.query context.orientation) ++ closingTexts))) ++
          (("questions" : Text) :: (strings (queryActionJudgmentQuestions R) ++ []))))) := rfl

/-- What is sent, besides fixed texts, is the model, the redacted query and roles and routes. -/
theorem mem_strings_payload {config : QueryActionJudgeConfig} {localRoots : List Text}
    {context : ContextPack R} {text : Text}
    (among : text ∈ strings (buildSystemOnePayload config localRoots context)) :
    text ∈ payloadTexts R ∨ text = config.model ∨
      text = redactProviderString localRoots context.query ∨
      ∃ item ∈ context.evidence ++ context.orientation,
        text = Item.role item ∨ text = Item.route item := by
  have summarized {items : List (ContextSearchResult R)}
      (sub : ∀ item ∈ items, item ∈ context.evidence ++ context.orientation)
      (textIn : text ∈ itemStrings (summaries context.query items)) :
      text ∈ payloadTexts R ∨ ∃ item ∈ context.evidence ++ context.orientation,
        text = Item.role item ∨ text = Item.route item := by
    rcases mem_strings_summaries textIn with known | ⟨item, itemIn, said⟩
    · exact .inl (by simp only [payloadTexts, List.mem_append, known, or_true, true_or])
    · exact .inr ⟨item, sub item itemIn, said⟩
  simp only [strings_payload, List.mem_cons, List.mem_append, List.append_nil] at among
  rcases among with head | model | gate | query | counts |
    (evidence | head | orientation | closing) | head | asked
  case inr.inl => exact .inr (.inl model)
  case inr.inr.inr.inl => exact .inr (.inr (.inl query))
  case inr.inr.inr.inr.inr.inl.inl =>
    rcases summarized (fun _ => List.mem_append_left _) evidence with known | said
    · exact .inl known
    · exact .inr (.inr (.inr said))
  case inr.inr.inr.inr.inr.inl.inr.inr.inl =>
    rcases summarized (fun _ => List.mem_append_right _) orientation with known | said
    · exact .inl known
    · exact .inr (.inr (.inr said))
  all_goals
    left
    simp only [payloadTexts, List.mem_append, List.mem_cons, *, or_true, true_or]

omit [Floats R] in
theorem copies_email :
    Copies [redactedEmail] (substituting emailPattern fun _ => redactedEmail) := by
  intro before after length mark matched
  obtain ⟨found, -, same⟩ := Option.map_eq_some_iff.mp matched
  obtain ⟨-, rfl⟩ := Prod.mk.inj same
  exact ⟨[], redactedEmail, [], (List.append_nil _).symm, List.nil_prefix,
    List.mem_singleton_self _, by decide⟩

omit [Unicode] in
theorem meets_of_sub {marks more : List Text} (sub : ∀ mark ∈ marks, mark ∈ more) {word : Text}
    (met : Meets marks word) : Meets more word := by
  obtain ⟨back, ends, nonempty, mark, among, overlap⟩ := met
  exact ⟨back, ends, nonempty, mark, sub mark among, overlap⟩

theorem not_infix_redactProviderString {localRoots : List Text} {root : Text}
    (among : root ∈ localRoots) (absolute : root.head? = some '/')
    (apart : ¬Meets (redactedEmail :: replacementMarks) root) (query : Text) :
    ¬root <:+: redactProviderString localRoots query := by
  intro found
  have kept : root <:+: redactString localRoots query := by
    rw [redactProviderString, ← rewrite_substituting] at found
    refine infix_of_copies copies_email (fun met => apart ?_) absolute found
    exact meets_of_sub (fun mark single => List.mem_singleton.mp single ▸ List.mem_cons_self) met
  refine not_infix_redactString among absolute (fun met => apart ?_) query kept
  exact meets_of_sub (fun mark => List.mem_cons_of_mem _) met

/-- The provider is told nothing of an answer but counts, fixed texts, the roles and the routes of
its items and the redacted query, which has no root of the server in it. -/
theorem payload_masked :
    (∃ fixed : List Text, ∀ (config : QueryActionJudgeConfig) (localRoots : List Text)
      (context : ContextPack R), ∀ text ∈ strings (buildSystemOnePayload config localRoots context),
        text ∈ fixed ∨ text = config.model ∨
          text = redactProviderString localRoots context.query ∨
          ∃ item ∈ context.evidence ++ context.orientation,
            text = Item.role item ∨ text = Item.route item) ∧
      ∀ (localRoots : List Text) (query : Text), ∀ root ∈ localRoots, root.head? = some '/' →
        ¬Meets (redactedEmail :: replacementMarks) root →
          ¬root <:+: redactProviderString localRoots query := by
  constructor
  · exact ⟨payloadTexts R, fun _ _ _ _ among => mem_strings_payload among⟩
  · intro localRoots query root among absolute apart
    exact not_infix_redactProviderString among absolute apart query

end Masked

section Sample
attribute [local instance] Unicode.ascii Floats.rational

/-- A root in a query. -/
theorem payload_masked_root :
    ¬("/srv/wiki" : Text) <:+: redactProviderString ["/srv/wiki"] "see /srv/wiki/a.md" := by
  obtain ⟨-, withheld⟩ := @payload_masked ℚ _ _
  refine withheld _ _ _ List.mem_cons_self rfl ?_
  decide
end Sample

end LlmWikiServe.QueryActions
