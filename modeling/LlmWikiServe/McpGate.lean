import LlmWikiServe.McpTools
import LlmWikiServe.RecordRoundTrip

/-!
# The gate before the service

Whatever a client sends, the service is asked only what the server permits: with drafts only where
they are allowed, within the bounds, by a tool that is enabled.  The answer depends on the service
at no other call, and no fault of the service shows in it.
-/

namespace LlmWikiServe.McpTools

open ManagedContext Instances

/-! ## Permitted calls -/

/-- Names as a list of options keeps them. -/
structure Clean (names : List Text) : Prop where
  nodup : names.Nodup
  trimmed : ∀ name ∈ names, Text.strip name = name
  present : ∀ name ∈ names, name ≠ []

def Within (low high value : Int) : Prop := low ≤ value ∧ value ≤ high

structure SearchOptions.Permitted (config : McpConfig) (options : SearchOptions) : Prop where
  limit : Within queryLimitMin queryLimitMax options.limit
  drafts : options.includeDrafts = true → config.allowDrafts = true
  fields : ∀ names ∈ options.fields, Clean names
  snippetChars : ∀ chars ∈ options.snippetChars, Within 0 snippetCharsMax chars
  minScore : ∀ score ∈ options.minScore, ∃ value, 0 ≤ value ∧ score = .finite value
  excludePageIds : Clean options.excludePageIds
  queryVariants : ∀ variants ∈ options.queryVariants, variants.length ≤ maxQueryVariants ∧
    ∀ variant ∈ variants, Text.strip variant = variant ∧ variant ≠ []

def ServiceCall.tool : ServiceCall → Text
  | .context _ _ => "llmwiki_context"
  | .search _ _ => "llmwiki_search"
  | .read _ _ _ _ _ _ _ => "llmwiki_read"
  | .graph _ _ => "llmwiki_graph"
  | .graphNeighbors _ _ _ _ _ _ => "llmwiki_graph_neighbors"
  | .sourceRefs _ => "llmwiki_source_refs"
  | .sourceBundle _ _ => "llmwiki_source_bundle"

def ServiceCall.Bounded (config : McpConfig) : ServiceCall → Prop
  | .context _ options => options.Permitted config
  | .search _ options => options.Permitted config
  | .read _ includeDrafts fields query sections maxChars _ =>
      (includeDrafts = true → config.allowDrafts = true) ∧ (∀ names ∈ fields, Clean names) ∧
        (∀ text ∈ query, Text.strip text ≠ []) ∧
        (∀ names ∈ sections, Clean names ∧ names ≠ []) ∧
        ∀ chars ∈ maxChars, Within readMaxCharsMin readMaxCharsMax chars
  | .graph limit includeDrafts =>
      Within graphLimitMin graphLimitMax limit ∧
        (includeDrafts = true → config.allowDrafts = true)
  | .graphNeighbors seeds depth _ relations limit includeDrafts =>
      Clean seeds ∧ Within 0 graphNeighborDepthMax depth ∧ Clean relations ∧
        Within graphLimitMin graphNeighborLimitMax limit ∧
        (includeDrafts = true → config.allowDrafts = true)
  | .sourceRefs includeDrafts => includeDrafts = true → config.allowDrafts = true
  | .sourceBundle includeDrafts enableA2aCompat =>
      (includeDrafts = true → config.allowDrafts = true) ∧
        enableA2aCompat = config.enableA2aCompat

/-- What the service may be asked on a server. -/
structure ServiceCall.Permitted (config : McpConfig) (call : ServiceCall) : Prop where
  enabled : config.enables call.tool = true
  bounded : call.Bounded config

theorem tool_known (call : ServiceCall) : call.tool ∈ mcpToolNames := by
  rw [mem_mcpToolNames]
  cases call with
  | context => exact Or.inl rfl
  | search => exact Or.inr (Or.inl rfl)
  | read => exact Or.inr (Or.inr (Or.inl rfl))
  | graph => exact Or.inr (Or.inr (Or.inr (Or.inl rfl)))
  | graphNeighbors => exact Or.inr (Or.inr (Or.inr (Or.inr (Or.inl rfl))))
  | sourceRefs => exact Or.inr (Or.inr (Or.inr (Or.inr (Or.inr (Or.inl rfl)))))
  | sourceBundle => exact Or.inr (Or.inr (Or.inr (Or.inr (Or.inr (Or.inr rfl)))))

theorem map_eq_ok {ε α β : Type} {first : Except ε α} {image : α → β} {result : β} :
    first.map image = .ok result ↔ ∃ value, first = .ok value ∧ image value = result := by
  cases first with
  | error error => simp [Except.map]
  | ok value => simp [Except.map]

/-! ## Arguments -/

theorem within_clamp {minimum maximum : Int} (ordered : minimum ≤ maximum) (value : Int) :
    Within minimum maximum (max minimum (min value maximum)) := by
  unfold Within
  omega

theorem clean_nil : Clean [] where
  nodup := List.nodup_nil
  trimmed _ among := absurd among List.not_mem_nil
  present _ among := absurd among List.not_mem_nil

theorem clean_addNew {result candidates : List Text} (clean : Clean result)
    (trimmed : ∀ candidate ∈ candidates, Text.strip candidate = candidate) :
    Clean (addNew result candidates) := by
  induction candidates generalizing result with
  | nil => exact clean
  | cons candidate candidates inductionHypothesis =>
      obtain ⟨first, later⟩ := List.forall_mem_cons.mp trimmed
      refine inductionHypothesis ?_ later
      dsimp only
      split_ifs with new
      · refine ⟨?_, ?_, ?_⟩
        · rw [List.nodup_append]
          refine ⟨clean.nodup, List.nodup_singleton _, ?_⟩
          rintro name among other single rfl
          rw [List.mem_singleton] at single
          exact new.2 (single ▸ among)
        · rw [List.forall_mem_append, List.forall_mem_singleton]
          exact ⟨clean.trimmed, first⟩
        · rw [List.forall_mem_append, List.forall_mem_singleton]
          exact ⟨clean.present, new.1⟩
      · exact clean

theorem trimmed_commaParts (text : Text) :
    ∀ part ∈ commaParts text, Text.strip part = part := by
  intro part among
  obtain ⟨raw, _, rfl⟩ := List.mem_map.mp among
  exact Text.strip_strip raw

theorem queryVariant_eq_ok {value : Json PyFloat} {variant : Text}
    (accepted : queryVariant value = .ok variant) :
    Text.strip variant = variant ∧ variant ≠ [] := by
  unfold queryVariant at accepted
  split at accepted
  · split_ifs at accepted with blank
    cases accepted
    exact ⟨Text.strip_strip _, blank⟩
  · cases accepted

theorem queryVariants_of_items {items : List (Json PyFloat)} {variants : List Text}
    (accepted : items.mapM queryVariant = .ok variants) :
    variants.length = items.length ∧
      ∀ variant ∈ variants, Text.strip variant = variant ∧ variant ≠ [] := by
  induction items generalizing variants with
  | nil =>
      obtain rfl : [] = variants := Except.ok.inj accepted
      exact ⟨rfl, fun _ among => absurd among List.not_mem_nil⟩
  | cons item items inductionHypothesis =>
      rw [List.mapM_cons, bind_eq_ok] at accepted
      obtain ⟨first, head, accepted⟩ := accepted
      obtain ⟨others, tail, made⟩ := bind_eq_ok.mp accepted
      obtain rfl : first :: others = variants := Except.ok.inj made
      obtain ⟨count, clean⟩ := inductionHypothesis tail
      exact ⟨congrArg (· + 1) count, List.forall_mem_cons.mpr ⟨queryVariant_eq_ok head, clean⟩⟩

theorem queryVariantsArg_permitted {args : Arguments} {result : Option (List Text)}
    (accepted : queryVariantsArg args = .ok result) :
    ∀ variants ∈ result, variants.length ≤ maxQueryVariants ∧
      ∀ variant ∈ variants, Text.strip variant = variant ∧ variant ≠ [] := by
  unfold queryVariantsArg at accepted
  split at accepted
  · cases accepted
    exact fun _ given => absurd given (Option.not_mem_none _)
  · cases accepted
  next items _ =>
    split_ifs at accepted with many
    cases made : items.mapM queryVariant with
    | error error =>
        rw [made] at accepted
        cases accepted
    | ok variants =>
        rw [made] at accepted
        cases accepted
        rintro variants ⟨⟩
        obtain ⟨count, clean⟩ := queryVariants_of_items made
        exact ⟨by omega, clean⟩
  · cases accepted

section Numerals

variable [Numbers]

theorem clampInt_within {value : Json PyFloat} {default minimum maximum result : Int}
    (ordered : minimum ≤ maximum) (clamped : clampInt value default minimum maximum = .ok result) :
    Within minimum maximum result := by
  unfold clampInt at clamped
  split at clamped
  · cases clamped
    exact within_clamp ordered _
  · cases clamped
    exact within_clamp ordered _
  · cases clamped

theorem optionalClampedInt_within {value : Json PyFloat} {minimum maximum : Int}
    {result : Option Int} (ordered : minimum ≤ maximum)
    (clamped : optionalClampedInt value minimum maximum = .ok result) :
    ∀ chars ∈ result, Within minimum maximum chars := by
  unfold optionalClampedInt at clamped
  split at clamped
  · cases clamped
    exact fun _ given => absurd given (Option.not_mem_none _)
  · cases clamped
    exact fun _ given => absurd given (Option.not_mem_none _)
  · split at clamped
    · cases clamped
      rintro chars ⟨⟩
      exact within_clamp ordered _
    · cases clamped
      exact fun _ given => absurd given (Option.not_mem_none _)
    · cases clamped

theorem optionalNonnegativeFloat_permitted {value : Json PyFloat} {result : Option PyFloat}
    (accepted : optionalNonnegativeFloat value = .ok result) :
    ∀ score ∈ result, ∃ value, 0 ≤ value ∧ score = .finite value := by
  unfold optionalNonnegativeFloat at accepted
  split at accepted
  · cases accepted
    exact fun _ given => absurd given (Option.not_mem_none _)
  · cases accepted
    exact fun _ given => absurd given (Option.not_mem_none _)
  · cases accepted
  · split at accepted
    next parsed _ =>
      split_ifs at accepted with negative
      cases accepted
      rintro score ⟨⟩
      exact ⟨parsed, not_lt.mp negative, rfl⟩
    · cases accepted
    · cases accepted

end Numerals

section Names

variable [Strs]

theorem trimmed_stringCandidates (value : Json PyFloat) :
    ∀ candidate ∈ stringCandidates value, Text.strip candidate = candidate := by
  unfold stringCandidates
  split
  · exact trimmed_commaParts _
  · intro candidate among
    obtain ⟨item, _, rfl⟩ := List.mem_map.mp among
    exact Text.strip_strip _
  · exact fun _ among => absurd among List.not_mem_nil

theorem clean_collectStringArgs (values : List (Json PyFloat)) :
    Clean (collectStringArgs values) := by
  unfold collectStringArgs
  generalize start : ([] : List Text) = result
  have clean : Clean result := start ▸ clean_nil
  clear start
  induction values generalizing result with
  | nil => exact clean
  | cons value values inductionHypothesis =>
      exact inductionHypothesis _ (clean_addNew clean (trimmed_stringCandidates value))

theorem clean_optionalStringArgs (value : Json PyFloat) :
    ∀ names ∈ optionalStringArgs value, Clean names := by
  unfold optionalStringArgs
  split_ifs
  · exact fun _ given => absurd given (Option.not_mem_none _)
  · rintro names ⟨⟩
    exact clean_collectStringArgs _

theorem clean_splitOptionValues {value : Json PyFloat} {names : List Text}
    (split_ : splitOptionValues value = .ok names) : Clean names := by
  unfold splitOptionValues at split_
  split at split_
  · cases split_
    exact clean_nil
  · cases split_
    exact clean_addNew clean_nil (trimmed_commaParts _)
  · cases split_
    apply clean_addNew clean_nil
    intro part among
    obtain ⟨item, _, among⟩ := List.mem_flatMap.mp among
    exact trimmed_commaParts _ part among
  · cases split_
    apply clean_addNew clean_nil
    intro part among
    obtain ⟨member, _, among⟩ := List.mem_flatMap.mp among
    exact trimmed_commaParts _ part among
  all_goals cases split_

end Names

/-! ## Failing arguments -/

def FailsByArguments {α : Type} (outcome : Except McpError α) : Prop :=
  ∀ error, outcome = .error error → (∃ message, error = .user message) ∨
    ∃ message, error = .fault message

theorem failsByArguments_ok {α : Type} (value : α) :
    FailsByArguments (.ok value : Except McpError α) := by
  rintro error ⟨⟩

theorem failsByArguments_user {α : Type} (message : Text) :
    FailsByArguments (.error (.user message) : Except McpError α) := by
  rintro error ⟨⟩
  exact Or.inl ⟨message, rfl⟩

theorem failsByArguments_fault {α : Type} (message : Text) :
    FailsByArguments (.error (.fault message) : Except McpError α) := by
  rintro error ⟨⟩
  exact Or.inr ⟨message, rfl⟩

theorem FailsByArguments.bind {α β : Type} {first : Except McpError α}
    {rest : α → Except McpError β} (head : FailsByArguments first)
    (tail : ∀ value, FailsByArguments (rest value)) : FailsByArguments (first >>= rest) := by
  cases first with
  | error error =>
      rintro other ⟨⟩
      exact head error rfl
  | ok value => exact tail value

theorem failsByArguments_mapM (items : List (Json PyFloat)) :
    FailsByArguments (items.mapM queryVariant) := by
  induction items with
  | nil => exact failsByArguments_ok _
  | cons item items inductionHypothesis =>
      rw [List.mapM_cons]
      refine FailsByArguments.bind ?_ fun variant =>
        inductionHypothesis.bind fun variants => failsByArguments_ok _
      unfold queryVariant
      split
      · split_ifs
        · exact failsByArguments_user _
        · exact failsByArguments_ok _
      · exact failsByArguments_user _

theorem failsByArguments_queryVariantsArg (args : Arguments) :
    FailsByArguments (queryVariantsArg args) := by
  unfold queryVariantsArg
  split
  · exact failsByArguments_ok _
  · exact failsByArguments_user _
  · split_ifs
    · exact failsByArguments_user _
    · exact (failsByArguments_mapM _).bind fun variants => failsByArguments_ok _
  · exact failsByArguments_user _

section Numerals

variable [Numbers]

theorem failsByArguments_clampInt (value : Json PyFloat) (default minimum maximum : Int) :
    FailsByArguments (clampInt value default minimum maximum) := by
  unfold clampInt
  split
  · exact failsByArguments_ok _
  · exact failsByArguments_ok _
  · exact failsByArguments_fault _

theorem failsByArguments_optionalClampedInt (value : Json PyFloat) (minimum maximum : Int) :
    FailsByArguments (optionalClampedInt value minimum maximum) := by
  unfold optionalClampedInt
  split
  · exact failsByArguments_ok _
  · exact failsByArguments_ok _
  · split
    · exact failsByArguments_ok _
    · exact failsByArguments_ok _
    · exact failsByArguments_fault _

theorem failsByArguments_optionalNonnegativeFloat (value : Json PyFloat) :
    FailsByArguments (optionalNonnegativeFloat value) := by
  unfold optionalNonnegativeFloat
  split
  · exact failsByArguments_ok _
  · exact failsByArguments_ok _
  · exact failsByArguments_user _
  · split
    · split_ifs
      · exact failsByArguments_user _
      · exact failsByArguments_ok _
    · exact failsByArguments_fault _
    · exact failsByArguments_user _

end Numerals

theorem failsByArguments_splitOptionValues [Strs] (value : Json PyFloat) :
    FailsByArguments (splitOptionValues value) := by
  unfold splitOptionValues
  split
  any_goals exact failsByArguments_ok _
  all_goals exact failsByArguments_fault _

/-! ## Calls -/

section Calls

variable [Unicode]

theorem drafts_allowed {config : McpConfig} {requested : Json PyFloat}
    (included : networkIncludeDrafts config.allowDrafts requested = true) :
    config.allowDrafts = true :=
  (Bool.and_eq_true_iff.mp included).1

variable [Strs]

theorem failsByArguments_searchModeArg (value : Json PyFloat) :
    FailsByArguments (searchModeArg value) := by
  unfold searchModeArg
  dsimp only
  split_ifs
  any_goals exact failsByArguments_ok _
  exact failsByArguments_user _

variable [Numbers]

theorem searchOptions_permitted {config : McpConfig} {contextDefaultLimit : Int}
    {args : Arguments} {options : SearchOptions}
    (accepted : searchOptions config contextDefaultLimit args = .ok options) :
    options.Permitted config := by
  obtain ⟨variants, known, accepted⟩ := bind_eq_ok.mp accepted
  obtain ⟨limit, clamped, accepted⟩ := bind_eq_ok.mp accepted
  obtain ⟨mode, _, accepted⟩ := bind_eq_ok.mp accepted
  obtain ⟨snippetChars, cut, accepted⟩ := bind_eq_ok.mp accepted
  obtain ⟨minScore, scored, accepted⟩ := bind_eq_ok.mp accepted
  cases accepted
  exact {
    limit := clampInt_within (by decide) clamped
    drafts := drafts_allowed
    fields := clean_optionalStringArgs _
    snippetChars := optionalClampedInt_within (by decide) cut
    minScore := optionalNonnegativeFloat_permitted scored
    excludePageIds := clean_collectStringArgs _
    queryVariants := queryVariantsArg_permitted known }

theorem readWithOptions_bounded {config : McpConfig} {args : Arguments} {call : ServiceCall}
    (accepted : readWithOptions config args = .ok call) :
    call.tool = "llmwiki_read" ∧ call.Bounded config := by
  obtain ⟨maxChars, clamped, accepted⟩ := bind_eq_ok.mp accepted
  obtain ⟨sections, parted, accepted⟩ := bind_eq_ok.mp accepted
  cases accepted
  refine ⟨rfl, drafts_allowed, clean_optionalStringArgs _, ?_, ?_, ?_⟩
  · intro text given
    split at given
    · split_ifs at given with blank
      · exact absurd given (Option.not_mem_none _)
      · rw [← Option.some.inj given]
        exact blank
    · exact absurd given (Option.not_mem_none _)
  · intro names given
    split_ifs at given with none
    · exact absurd given (Option.not_mem_none _)
    · rw [← Option.some.inj given]
      exact ⟨clean_splitOptionValues parted, none⟩
  · intro chars given
    rcases Option.or_eq_some_iff.mp given with requested | ⟨_, default⟩
    · exact optionalClampedInt_within (by decide) clamped chars requested
    · exact config.readDefaultBounded chars default

/-- A tool makes a call of its own kind, within the bounds. -/
theorem toolCall_bounded {config : McpConfig} {graphDefaultLimit contextDefaultLimit : Int}
    {name : Text} {args : Arguments} {call : ServiceCall}
    (accepted : toolCall config graphDefaultLimit contextDefaultLimit name args = .ok call) :
    call.tool = name ∧ call.Bounded config := by
  unfold toolCall at accepted
  dsimp only at accepted
  split_ifs at accepted with context search read graph neighbors refs bundle
  · obtain ⟨options, permitted, accepted⟩ := bind_eq_ok.mp accepted
    cases accepted
    exact ⟨context.symm, searchOptions_permitted permitted⟩
  · obtain ⟨options, permitted, accepted⟩ := bind_eq_ok.mp accepted
    cases accepted
    exact ⟨search.symm, searchOptions_permitted permitted⟩
  · rw [read]
    exact readWithOptions_bounded accepted
  · obtain ⟨limit, clamped, accepted⟩ := bind_eq_ok.mp accepted
    cases accepted
    exact ⟨graph.symm, clampInt_within (by decide) clamped, drafts_allowed⟩
  · obtain ⟨depth, deep, accepted⟩ := bind_eq_ok.mp accepted
    obtain ⟨limit, clamped, accepted⟩ := bind_eq_ok.mp accepted
    cases accepted
    exact ⟨neighbors.symm, clean_collectStringArgs _, clampInt_within (by decide) deep,
      clean_collectStringArgs _, clampInt_within (by decide) clamped, drafts_allowed⟩
  · cases accepted
    exact ⟨refs.symm, drafts_allowed⟩
  · cases accepted
    exact ⟨bundle.symm, drafts_allowed, rfl⟩

/-! ## Requests -/

theorem callTool_permitted {config : McpConfig} {graphDefaultLimit contextDefaultLimit : Int}
    {params : Arguments} {call : ServiceCall}
    (asked : callTool config graphDefaultLimit contextDefaultLimit params = .ok (.call call)) :
    call.Permitted config := by
  unfold callTool at asked
  dsimp only at asked
  split_ifs at asked with disabled
  obtain ⟨known, made, same⟩ := map_eq_ok.mp asked
  cases same
  obtain ⟨tool, bounded⟩ := toolCall_bounded made
  refine ⟨?_, bounded⟩
  by_contra refused
  rw [← tool] at disabled
  exact disabled ⟨tool_known call, Bool.eq_false_iff.mpr refused⟩

/-- A request that reaches a tool makes a permitted call, and is a `tools/call`. -/
theorem handleMcp_permitted {config : McpConfig} {manifest : Bool → Option WikiManifest}
    {method : Text} {params : Option Arguments} {call : ServiceCall}
    (asked : handleMcp config manifest method params = .ok (.call call)) :
    method = "tools/call" ∧ call.Permitted config := by
  obtain ⟨graphDefaultLimit, _, asked⟩ := bind_eq_ok.mp asked
  obtain ⟨contextDefaultLimit, _, asked⟩ := bind_eq_ok.mp asked
  split_ifs at asked with list other
  · cases asked
  · exact ⟨not_not.mp other, callTool_permitted asked⟩

/-- Two answers of the service that a client cannot tell apart. -/
inductive SameToClient : ServiceAnswer → ServiceAnswer → Prop where
  | result (members : List (Text × Json PyFloat)) : SameToClient (.result members) (.result members)
  | user (message : Text) (code : Int) : SameToClient (.user message code) (.user message code)
  | fault (first second : Text) : SameToClient (.fault first) (.fault second)

omit [Unicode] [Strs] [Numbers] in
def WikiManifest.names (manifest : WikiManifest) : Text × Text := (manifest.title, manifest.sourceId)

omit [Unicode] [Strs] [Numbers] in
/-- Two services that a request cannot tell apart: for a list of tools they name the wiki alike or
both fail to, for a call of a tool they answer the permitted calls alike, and they say the same of
their synchronisation. -/
structure SameService (config : McpConfig) (method : Text) (first second : McpService) : Prop where
  manifest : method = "tools/list" → (first.manifest config.enableA2aCompat).map WikiManifest.names =
    (second.manifest config.enableA2aCompat).map WikiManifest.names
  calls : method = "tools/call" →
    ∀ call, call.Permitted config → SameToClient (first.serve call) (second.serve call)
  gitSyncStatus : first.gitSyncStatus.toOption = second.gitSyncStatus.toOption

omit [Unicode] [Strs] [Numbers] in
theorem resolvedMcpToolDescriptionPrefix_congr {config : McpConfig}
    {first second : Option WikiManifest}
    (named : first.map WikiManifest.names = second.map WikiManifest.names) :
    resolvedMcpToolDescriptionPrefix config first =
      resolvedMcpToolDescriptionPrefix config second := by
  cases first with
  | none =>
      cases second with
      | none => rfl
      | some second => cases named
  | some first =>
      cases second with
      | none => cases named
      | some second =>
          obtain ⟨title, sourceId⟩ := Prod.mk.inj (Option.some.inj named)
          simp only [resolvedMcpToolDescriptionPrefix, mcpToolScopeLabel, resolvedMcpServerName,
            title, sourceId]

theorem handled_congr {config : McpConfig} {request : JsonRpcRequest} {first second : McpService}
    (same : SameService config request.method first second) :
    handled config first request = handled config second request := by
  have asked : handleMcp config first.manifest request.method request.params =
      handleMcp config second.manifest request.method request.params := by
    unfold handleMcp
    by_cases list : request.method = "tools/list"
    · simp only [if_pos list, listTools, resolvedMcpToolDescriptionPrefix_congr (same.manifest list)]
    · simp only [if_neg list]
  unfold handled
  rw [asked]
  split
  · rfl
  · rfl
  next call made =>
    obtain ⟨isCall, permitted⟩ := handleMcp_permitted made
    have alike := same.calls isCall call permitted
    revert alike
    generalize first.serve call = left
    generalize second.serve call = right
    intro alike
    cases alike <;> rfl

/-- An answer echoes the id of its request and has a result or an error, not both; it depends on
the service only by the names of its wiki where the tools are listed, by permitted calls where one
is called, and by the state of its synchronisation, and on none of its faults. -/
theorem mcpRoute_gate (config : McpConfig) (request : JsonRpcRequest) (service : McpService) :
    (mcpRoute config service request).id = request.id ∧
      ((mcpRoute config service request).result.isSome ↔
        (mcpRoute config service request).error = none) ∧
      ∀ other, SameService config request.method service other →
        mcpRoute config service request = mcpRoute config other request := by
  refine ⟨?_, ?_, fun other same => ?_⟩
  · unfold mcpRoute
    dsimp only
    split <;> rfl
  · unfold mcpRoute
    dsimp only
    split <;> simp
  · have status := same.gitSyncStatus
    unfold mcpRoute
    rw [handled_congr same]
    cases asked : service.gitSyncStatus with
    | error message =>
        cases answered : other.gitSyncStatus with
        | error text => rfl
        | ok gitStatus =>
            rw [asked, answered] at status
            cases status
    | ok gitStatus =>
        cases answered : other.gitSyncStatus with
        | error text =>
            rw [asked, answered] at status
            cases status
        | ok otherStatus =>
            rw [asked, answered] at status
            obtain rfl := Option.some.inj status
            rfl

/-! ## Listed tools -/

theorem failsByArguments_searchOptions (config : McpConfig) (contextDefaultLimit : Int)
    (args : Arguments) : FailsByArguments (searchOptions config contextDefaultLimit args) :=
  (failsByArguments_queryVariantsArg args).bind fun _ =>
    (failsByArguments_clampInt _ _ _ _).bind fun _ =>
      (failsByArguments_searchModeArg _).bind fun _ =>
        (failsByArguments_optionalClampedInt _ _ _).bind fun _ =>
          (failsByArguments_optionalNonnegativeFloat _).bind fun _ => failsByArguments_ok _

theorem failsByArguments_toolCall (config : McpConfig)
    (graphDefaultLimit contextDefaultLimit : Int) {name : Text} (known : name ∈ mcpToolNames)
    (args : Arguments) :
    FailsByArguments (toolCall config graphDefaultLimit contextDefaultLimit name args) := by
  unfold toolCall
  dsimp only
  split_ifs with context search read graph neighbors refs bundle
  · exact (failsByArguments_searchOptions _ _ _).bind fun _ => failsByArguments_ok _
  · exact (failsByArguments_searchOptions _ _ _).bind fun _ => failsByArguments_ok _
  · exact (failsByArguments_optionalClampedInt _ _ _).bind fun _ =>
      (failsByArguments_splitOptionValues _).bind fun _ => failsByArguments_ok _
  · exact (failsByArguments_clampInt _ _ _ _).bind fun _ => failsByArguments_ok _
  · exact (failsByArguments_clampInt _ _ _ _).bind fun _ =>
      (failsByArguments_clampInt _ _ _ _).bind fun _ => failsByArguments_ok _
  · exact failsByArguments_ok _
  · exact failsByArguments_ok _
  · rcases mem_mcpToolNames.mp known with same | same | same | same | same | same | same
    · exact absurd same context
    · exact absurd same search
    · exact absurd same read
    · exact absurd same graph
    · exact absurd same neighbors
    · exact absurd same refs
    · exact absurd same bundle

theorem toolCall_unknown (config : McpConfig) (graphDefaultLimit contextDefaultLimit : Int)
    {name : Text} (unknown : name ∉ mcpToolNames) (args : Arguments) :
    toolCall config graphDefaultLimit contextDefaultLimit name args = .error .unknownTool := by
  rw [mem_mcpToolNames] at unknown
  push Not at unknown
  obtain ⟨context, search, read, graph, neighbors, refs, bundle⟩ := unknown
  simp only [toolCall, if_neg context, if_neg search, if_neg read, if_neg graph, if_neg neighbors,
    if_neg refs, if_neg bundle]

omit [Unicode] [Strs] [Numbers] in
theorem map_fst_listTools (config : McpConfig) (graphDefaultLimit contextDefaultLimit : Int)
    (manifest : Option WikiManifest) :
    (listTools config graphDefaultLimit contextDefaultLimit manifest).map Prod.fst =
      mcpToolNames.filter config.enables := by
  have names :
      (mcpToolDescriptions config contextDefaultLimit graphDefaultLimit).map Prod.fst =
        mcpToolNames := by
    simp only [mcpToolDescriptions, mcpToolNames, mcpToolBaseDescriptions, List.map_cons,
      List.map_nil]
  rw [← names, List.filter_map, listTools, List.map_map]
  rfl

omit [Unicode] [Strs] [Numbers] in
theorem enables_of_resolved {included excluded : List Text} {enabled : Option (List Text)}
    (resolved : resolveMcpToolSelection included excluded = .ok enabled) {config : McpConfig}
    (configured : config.enabledTools = enabled) :
    (∀ name ∈ mcpToolNames, config.enables name = true ↔
      (splitOptionTexts included = [] ∨ name ∈ splitOptionTexts included) ∧
        name ∉ splitOptionTexts excluded) ∧
      mcpToolNames.filter config.enables ≠ [] := by
  unfold resolveMcpToolSelection at resolved
  dsimp only at resolved
  split_ifs at resolved with all unknown nothing
  · cases resolved
    have every (name : Text) : config.enables name = true := by
      rw [McpConfig.enables, configured]
      rfl
    refine ⟨fun name _ => ?_, ?_⟩
    · rw [every name, all.1, all.2]
      simp
    · rw [List.filter_eq_self.mpr fun name _ => every name]
      exact List.cons_ne_nil _ _
  · cases resolved
    generalize chosen : mcpToolNames.filter
      (fun name => decide ((splitOptionTexts included = [] ∨ name ∈ splitOptionTexts included) ∧
        name ∉ splitOptionTexts excluded)) = names at configured nothing
    have among (name : Text) : config.enables name = true ↔ name ∈ names := by
      rw [McpConfig.enables, configured]
      simp
    have member (name : Text) (known : name ∈ mcpToolNames) : config.enables name = true ↔
        (splitOptionTexts included = [] ∨ name ∈ splitOptionTexts included) ∧
          name ∉ splitOptionTexts excluded := by
      rw [among, ← chosen, List.mem_filter, decide_eq_true_eq]
      exact and_iff_right known
    refine ⟨member, ?_⟩
    have same : mcpToolNames.filter config.enables = names := by
      rw [← chosen]
      apply List.filter_congr
      intro name known
      rw [Bool.eq_iff_iff, member name known, decide_eq_true_eq]
    rw [same]
    exact nothing

theorem callTool_refused_iff (config : McpConfig) (graphDefaultLimit contextDefaultLimit : Int)
    (params : Arguments) :
    callTool config graphDefaultLimit contextDefaultLimit params = .error .unknownTool ∨
        callTool config graphDefaultLimit contextDefaultLimit params =
          .error (.disabledTool (textOr [] (argument params "name"))) ↔
      textOr [] (argument params "name") ∉ mcpToolNames.filter config.enables := by
  unfold callTool
  dsimp only
  generalize textOr [] (argument params "name") = name
  generalize dictOf (argument params "arguments") = args
  rw [List.mem_filter, not_and]
  split_ifs with disabled
  · simp [disabled.2]
  · by_cases known : name ∈ mcpToolNames
    · have enabled : config.enables name = true := by
        by_contra refused
        exact disabled ⟨known, Bool.eq_false_iff.mpr refused⟩
      have fails :=
        failsByArguments_toolCall config graphDefaultLimit contextDefaultLimit known args
      constructor
      · cases made : toolCall config graphDefaultLimit contextDefaultLimit name args with
        | ok call => rintro (refused | refused) <;> cases refused
        | error error =>
            rcases fails error made with ⟨message, rfl⟩ | ⟨message, rfl⟩
            · rintro (refused | refused) <;> cases refused
            · rintro (refused | refused) <;> cases refused
      · intro refused
        exact absurd enabled (refused known)
    · rw [toolCall_unknown config graphDefaultLimit contextDefaultLimit known args]
      exact iff_of_true (Or.inl rfl) fun among => absurd among known

/-- A server whose limits are accepted lists its tools whatever its service says of itself: those
that its selection includes and does not exclude, in the fixed order and never none, and they are
the ones that can be called. -/
theorem toolSelection_agrees {included excluded : List Text} {enabled : Option (List Text)}
    (resolved : resolveMcpToolSelection included excluded = .ok enabled) {config : McpConfig}
    (configured : config.enabledTools = enabled) {graphDefaultLimit contextDefaultLimit : Int}
    (graphLimit : validateDefaultLimit config.graphDefaultLimit "graph_default_limit"
      defaultGraphLimit graphLimitMin graphLimitMax = .ok graphDefaultLimit)
    (contextLimit : validateDefaultLimit config.contextDefaultLimit "context_default_limit"
      defaultContextLimit queryLimitMin queryLimitMax = .ok contextDefaultLimit)
    (manifest : Bool → Option WikiManifest) (listing : Option Arguments) :
    ∃ tools, handleMcp config manifest "tools/list" listing = .ok (.tools tools) ∧
      tools ≠ [] ∧ (tools.map Prod.fst).Sublist mcpToolNames ∧
      (∀ name, name ∈ tools.map Prod.fst ↔ name ∈ mcpToolNames ∧
        (splitOptionTexts included = [] ∨ name ∈ splitOptionTexts included) ∧
          name ∉ splitOptionTexts excluded) ∧
      ∀ params, textOr [] (argument params "name") ∈ tools.map Prod.fst ↔
        handleMcp config manifest "tools/call" (some params) ≠ .error .unknownTool ∧
          handleMcp config manifest "tools/call" (some params) ≠
            .error (.disabledTool (textOr [] (argument params "name"))) := by
  have listed : handleMcp config manifest "tools/list" listing =
      .ok (.tools (listTools config graphDefaultLimit contextDefaultLimit
        (manifest config.enableA2aCompat))) := by
    rw [handleMcp, graphLimit, contextLimit]
    rfl
  have calls (params : Arguments) : handleMcp config manifest "tools/call" (some params) =
      callTool config graphDefaultLimit contextDefaultLimit params := by
    rw [handleMcp, graphLimit, contextLimit]
    rfl
  obtain ⟨member, some_⟩ := enables_of_resolved resolved configured
  have names := map_fst_listTools config graphDefaultLimit contextDefaultLimit
    (manifest config.enableA2aCompat)
  refine ⟨_, listed, ?_, ?_, fun name => ?_, fun params => ?_⟩
  · intro none
    rw [none] at names
    exact some_ names.symm
  · rw [names]
    exact List.filter_sublist
  · rw [names, List.mem_filter]
    exact and_congr_right (member name)
  · rw [names, calls, ← not_or, callTool_refused_iff, not_not]

end Calls

section Sample

attribute [local instance] Unicode.ascii sampleNumbers plainStrs

def readOnlyConfig : McpConfig where
  enabledTools := some ["llmwiki_search", "llmwiki_read"]

def searchRequest : JsonRpcRequest where
  id := .int 7
  method := "tools/call"
  params := some [("name", .string "llmwiki_search"),
    ("arguments", .object [("query", .string "tides"), ("include_drafts", .bool true)])]

def searchService (failure : Text) : McpService where
  serve
    | .search _ _ => .result [("results", .array [])]
    | .graph _ _ => .result [("message", .string failure)]
    | _ => .fault failure
  manifest _ := none
  gitSyncStatus := .ok (some (.object [("state", .string "synced")]))

theorem mcpRoute_gate_searchRequest :
    (mcpRoute readOnlyConfig (searchService "no page") searchRequest).id = .int 7 ∧
      (mcpRoute readOnlyConfig (searchService "no page") searchRequest).error = none ∧
      (mcpRoute readOnlyConfig (searchService "no page") searchRequest).result.isSome ∧
      mcpRoute readOnlyConfig (searchService "no page") searchRequest =
        mcpRoute readOnlyConfig (searchService "no index") searchRequest := by
  obtain ⟨id, apart, same⟩ := mcpRoute_gate readOnlyConfig searchRequest (searchService "no page")
  have answered : (mcpRoute readOnlyConfig (searchService "no page") searchRequest).result.isSome =
      true := by decide
  refine ⟨id, apart.mp answered, answered, same (searchService "no index") ⟨fun _ => rfl, ?_, rfl⟩⟩
  intro _ call permitted
  have off : readOnlyConfig.enables "llmwiki_graph" ≠ true := by decide
  cases call with
  | search => exact .result _
  | graph => exact absurd permitted.enabled off
  | context => exact .fault _ _
  | read => exact .fault _ _
  | graphNeighbors => exact .fault _ _
  | sourceRefs => exact .fault _ _
  | sourceBundle => exact .fault _ _

def withoutGraph : List Text :=
  ["llmwiki_context", "llmwiki_search", "llmwiki_read", "llmwiki_graph_neighbors",
    "llmwiki_source_refs", "llmwiki_source_bundle"]

def withoutGraphConfig : McpConfig where
  enabledTools := some withoutGraph

theorem toolSelection_agrees_withoutGraph :
    ∃ tools, handleMcp withoutGraphConfig (fun _ => none) "tools/list" none = .ok (.tools tools) ∧
      tools ≠ [] ∧ ("llmwiki_graph" : Text) ∉ tools.map Prod.fst ∧
      ("llmwiki_read" : Text) ∈ tools.map Prod.fst := by
  have resolved : resolveMcpToolSelection [] ["llmwiki_graph"] = .ok (some withoutGraph) := by
    decide
  obtain ⟨tools, listed, some_, _, named, _⟩ :=
    toolSelection_agrees resolved (rfl : withoutGraphConfig.enabledTools = _) rfl rfl
      (fun _ => none) none
  refine ⟨tools, listed, some_, ?_, ?_⟩
  · rw [named]
    exact fun chosen => chosen.2.2 (by decide)
  · rw [named]
    exact ⟨by decide, by decide, by decide⟩

end Sample

end LlmWikiServe.McpTools
