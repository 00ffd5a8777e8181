import LlmWikiServe.Foundation.Transition
import LlmWikiServe.IndexRecovery
import LlmWikiServe.Service

/-!
# Source references and source bundles

A request for source references asks for the index twice, one for a source bundle three times,
and other requests of the service may ask in between.  Each answer of `index()` may come from
another state of the source.
-/

namespace LlmWikiServe

open Transition

/-! ## References of pages -/

structure SourceRef where
  id : Text
  label : Text
  kind : Text := "source_ref"
  uri : Text := []
  linkedPages : List Text := []
  linkedPageIds : List Text := []
  locator : Metadata := []

/-- The ids given out so far. -/
structure SourceRefIds where
  idsByLabel : List (Text × Text) := []
  usedIds : List Text := []

/-- The first numbered candidate that is not used, among as many as there are used ids and one
more. -/
def numberedRefId (usedIds : List Text) (candidate : Text) : Nat → Nat → Text
  | 0, counter => candidate ++ '-' :: Text.ofNat counter
  | fuel + 1, counter =>
      let numbered := candidate ++ '-' :: Text.ofNat counter
      if numbered ∈ usedIds then numberedRefId usedIds candidate fuel (counter + 1) else numbered

def linkSourceRefPage (ref : SourceRef) (page : WikiPage) : SourceRef :=
  { ref with
    linkedPages :=
      if page.path ∈ ref.linkedPages then ref.linkedPages else ref.linkedPages ++ [page.path]
    linkedPageIds :=
      if page.id ∈ ref.linkedPageIds then ref.linkedPageIds else ref.linkedPageIds ++ [page.id] }

/-- The references collected so far, in the order they were met. -/
structure SourceRefCollection where
  ids : SourceRefIds := {}
  refs : List (Text × SourceRef) := []

section References

variable [Unicode] [Hashing]

def stableSourceRefId (label : Text) (ids : SourceRefIds) : Text × SourceRefIds :=
  match Keyed.get? ids.idsByLabel label with
  | some existing => (existing, ids)
  | none =>
      let base := Text.lower (slug label)
      let digested := base ++ '-' :: (Hashing.sha256 label).take 8
      let candidate :=
        if base ∉ ids.usedIds then base
        else if digested ∉ ids.usedIds then digested
        else numberedRefId ids.usedIds digested ids.usedIds.length 2
      (candidate,
        { idsByLabel := Keyed.set ids.idsByLabel label candidate
          usedIds := candidate :: ids.usedIds })

def SourceRefCollection.link (collection : SourceRefCollection) (page : WikiPage) (label : Text)
    (create : Text → SourceRef) : SourceRefCollection :=
  let (refId, ids) := stableSourceRefId label collection.ids
  let current := (Keyed.get? collection.refs refId).getD (create refId)
  { ids, refs := Keyed.set collection.refs refId (linkSourceRefPage current page) }

omit [Unicode] [Hashing] in
def sourceRefUri (sourceId refId : Text) : Text :=
  ("llmwiki://" : Text) ++ sourceId ++ ("/source-refs/" : Text) ++ refId

variable [Interpreter]

omit [Unicode] [Hashing] in
def okfSourceLocator (source : OkfSource) (okf : OkfMetadata) (page : WikiPage) : Metadata :=
  [("source_profile", .str "okf-v0.2"), ("source", source.dump),
    ("first_seen_page", Value.ofMetadata [("id", .str page.id), ("path", .str page.path)]),
    ("document", Value.ofMetadata
      [("concept_type", .str okf.conceptType), ("status", .str okf.status),
        ("trust_tier", .str okf.trustTier.text), ("stale_after", .str okf.staleAfter)])]

def SourceRefCollection.addOkfSource (sourceId : Text) (page : WikiPage) (okf : OkfMetadata)
    (collection : SourceRefCollection) (source : OkfSource) : SourceRefCollection :=
  collection.link page source.refKey fun refId =>
    { id := refId
      label := source.refLabel
      kind := "okf_source"
      uri := sourceRefUri sourceId refId
      locator := okfSourceLocator source okf page }

omit [Interpreter] in
def SourceRefCollection.addLabel (sourceId : Text) (page : WikiPage)
    (collection : SourceRefCollection) (label : Text) : SourceRefCollection :=
  collection.link page label fun refId =>
    { id := refId, label, uri := sourceRefUri sourceId refId }

/-- The OKF sources of a page, then its labels that are none of them. -/
def SourceRefCollection.addPage (sourceId : Text) (collection : SourceRefCollection)
    (page : WikiPage) : SourceRefCollection :=
  let withOkf :=
    match page.okf with
    | none => collection
    | some okf => okf.sources.foldl (.addOkfSource sourceId page okf) collection
  (page.sourceRefs.filter fun label => label ∉ projectedOkfSourceRefs page).foldl
    (.addLabel sourceId page) withOkf

/-- The references of the visible pages, in the order of their ids. -/
def collectSourceRefs (sourceId : Text) (includeDrafts : Bool) (pages : List WikiPage) :
    List SourceRef :=
  let collection := (visiblePages pages includeDrafts).foldl
    (SourceRefCollection.addPage sourceId) {}
  sortBy (fun first second => decide (first.id ≤ second.id)) (collection.refs.map Prod.snd)

end References

/-! ## Responses -/

structure SourceRefsResponse where
  sourceId : Text
  bundleId : Text
  sourceRefs : List SourceRef

structure SourceBundleManifest where
  sourceId : Text
  bundleId : Text
  publicUri : Text
  title : Text
  description : Text
  adapter : Text
  implementation : Text
  sourceProfile : Text
  formatVersion : Text
  projection : ProjectionMetadata
  rawOrigins : List Text
  capabilities : List Text
  sourceRefs : List SourceRef

section Responses

variable [Unicode] [Hashing] [Interpreter]

/-- The end of `source_refs`, with the index and the manifest it was given. -/
def sourceRefsResponse (includeDrafts : Bool) (index : WikiIndex) (manifest : WikiManifest) :
    SourceRefsResponse where
  sourceId := manifest.sourceId
  bundleId := manifest.bundleId
  sourceRefs := collectSourceRefs manifest.sourceId includeDrafts index.pages

omit [Unicode] [Hashing] [Interpreter] in
/-- The end of `source_bundle`. -/
def sourceBundleManifest (manifest : WikiManifest) (sourceRefs : SourceRefsResponse) :
    SourceBundleManifest where
  sourceId := manifest.sourceId
  bundleId := manifest.bundleId
  publicUri := manifest.publicUri
  title := manifest.title
  description := manifest.description
  adapter := manifest.adapter
  implementation := manifest.implementation
  sourceProfile := manifest.sourceProfile
  formatVersion := manifest.formatVersion
  projection := manifest.projection
  rawOrigins := manifest.rawOrigins
  capabilities := manifest.capabilities
  sourceRefs := sourceRefs.sourceRefs

def snapshotManifest (settings : ServiceSettings) (tree : FileTree) (snapshot : RetrievalSnapshot)
    (enableA2aCompat : Bool) : WikiManifest :=
  manifest settings tree snapshot.projectionSignatureDigest snapshot.index enableA2aCompat

end Responses

/-! ## Requests in flight -/

inductive SourceRequest where
  | sourceRefs (includeDrafts : Bool)
  | sourceBundle (includeDrafts enableA2aCompat : Bool)

/-- What a request has before its next `index()` call. -/
inductive RequestPhase where
  | started (request : SourceRequest)
  /-- `source_bundle` has its manifest and is about to collect references. -/
  | described (includeDrafts : Bool) (manifest : WikiManifest)
  /-- `source_refs` has the index, for a bundle if there is a manifest. -/
  | indexed (includeDrafts : Bool) (outer : Option WikiManifest) (snapshot : RetrievalSnapshot)

inductive SourceResponse where
  | sourceRefs (response : SourceRefsResponse)
  | sourceBundle (response : SourceBundleManifest)

def SourceResponse.refs : SourceResponse → List SourceRef
  | .sourceRefs response => response.sourceRefs
  | .sourceBundle response => response.sourceRefs

structure SourceAnswer where
  includeDrafts : Bool
  snapshot : RetrievalSnapshot
  response : SourceResponse

structure Responder where
  service : IndexState
  requests : Nat → Option RequestPhase
  answers : List SourceAnswer

/-- An `index()` call is one event, with what the source answers to its steps. -/
inductive ResponderEvent (Failure : Type) where
  | begin (id : Nat) (request : SourceRequest)
  /-- The next call of a request; `tree` is what the manifest finds below the root. -/
  | proceed (id : Nat) (call : IndexCall Failure) (tree : FileTree)
  /-- A call made for anything else. -/
  | other (call : IndexCall Failure)

/-- The snapshot a call returned, unless it raised. -/
def IndexResult.snapshot? {Failure : Type} : IndexResult Failure → Option RetrievalSnapshot
  | .reused snapshot => some snapshot
  | .unchanged snapshot => some snapshot
  | .rebuilt snapshot => some snapshot
  | .raised _ _ => none

def Responder.withRequest (state : Responder) (id : Nat) (phase : Option RequestPhase) :
    Responder :=
  { state with requests := Function.update state.requests id phase }

def Responder.initial (cache : SignatureCache) : Responder where
  service := .initial cache
  requests _ := none
  answers := []

section Steps

variable [Unicode] [Hashing] [Interpreter] {Failure : Type}

/-- A request goes on with the snapshot its call returned. -/
def Responder.receive (settings : ServiceSettings) (tree : FileTree) (id : Nat)
    (snapshot : RetrievalSnapshot) (state : Responder) : RequestPhase → Responder
  | .started (.sourceRefs includeDrafts) =>
      state.withRequest id (some (.indexed includeDrafts none snapshot))
  | .started (.sourceBundle includeDrafts enableA2aCompat) =>
      state.withRequest id
        (some (.described includeDrafts
          (snapshotManifest settings tree snapshot enableA2aCompat)))
  | .described includeDrafts outer =>
      state.withRequest id (some (.indexed includeDrafts (some outer) snapshot))
  | .indexed includeDrafts outer collected =>
      let refs := sourceRefsResponse includeDrafts collected.index
        (snapshotManifest settings tree snapshot false)
      let response : SourceResponse :=
        match outer with
        | none => .sourceRefs refs
        | some manifest => .sourceBundle (sourceBundleManifest manifest refs)
      ({ state with answers := state.answers ++ [⟨includeDrafts, collected, response⟩] } : Responder).withRequest
        id none

def responderStep (settings : ServiceSettings) (config : IndexConfig) (state : Responder) :
    ResponderEvent Failure → Option Responder
  | .begin id request =>
      match state.requests id with
      | some _ => none
      | none => some (state.withRequest id (some (.started request)))
  | .proceed id call tree =>
      match state.requests id with
      | none => none
      | some phase =>
          if call.refresh then none
          else
            let (result, service) := indexSnapshot config call state.service
            let called := { state with service }
            match result.snapshot? with
            | none => some (called.withRequest id none)
            | some snapshot => some (called.receive settings tree id snapshot phase)
  | .other call => some { state with service := (indexSnapshot config call state.service).2 }

/-! ## One response, one snapshot -/

omit [Unicode] [Hashing] [Interpreter] in
/-- What a manifest says of the index it describes. -/
def WikiManifest.told (manifest : WikiManifest) : Text × ProjectionMetadata × Text × Text :=
  (manifest.bundleId, manifest.projection, manifest.title, manifest.adapter)

/-- What the manifest of an index says of it, which does not depend on what is below the root. -/
def toldOf (settings : ServiceSettings) (digest : Text) (index : WikiIndex) :
    Text × ProjectionMetadata × Text × Text :=
  (manifest settings ⟨none, nofun, nofun⟩ digest index false).told

def RetrievalSnapshot.told (settings : ServiceSettings) (snapshot : RetrievalSnapshot) :
    Text × ProjectionMetadata × Text × Text :=
  toldOf settings snapshot.projectionSignatureDigest snapshot.index

/-- The response describes the snapshot its references were collected from. -/
def SourceAnswer.OneSnapshot (settings : ServiceSettings) (answer : SourceAnswer) : Prop :=
  (∃ sourceId, answer.response.refs =
      collectSourceRefs sourceId answer.includeDrafts answer.snapshot.index.pages) ∧
    match answer.response with
    | .sourceRefs response => response.bundleId = (answer.snapshot.told settings).1
    | .sourceBundle response =>
        (response.bundleId, response.projection, response.title, response.adapter) =
          answer.snapshot.told settings

/-- A phase whose references are still to come, or whose manifest is. -/
def RequestPhase.told? (settings : ServiceSettings) :
    RequestPhase → Option (Text × ProjectionMetadata × Text × Text)
  | .started _ => none
  | .described _ manifest => some manifest.told
  | .indexed _ none snapshot => some (snapshot.told settings)
  | .indexed _ (some _) _ => none

/-- A due call finds the published signatures without refreshing, or publishes a record whose
manifest says what the published one's does. -/
def Retells (settings : ServiceSettings) (config : IndexConfig) (call : IndexCall Failure)
    (state : IndexState) : Prop :=
  ∀ published snapshot, state.retrievalSnapshot = some published → Due config call state →
    scanAnswer config call state = .ok snapshot →
    (refreshes config call state = false ∧ matchesPublished state snapshot = true) ∨
      ∀ record,
        rebuildRecord config call (refreshes config call state)
            (projectionSignatureDigest snapshot.projectionSignature) = .ok record →
        toldOf settings (projectionSignatureDigest snapshot.projectionSignature) record.index =
          published.told settings

def ResponderEvent.call? : ResponderEvent Failure → Option (IndexCall Failure)
  | .begin _ _ => none
  | .proceed _ call _ => some call
  | .other call => some call

/-- No `index()` call moves on to a differently described index while a request is between the
two calls that its response describes. -/
def Undisturbed (settings : ServiceSettings) (config : IndexConfig) (state : Responder)
    (event : ResponderEvent Failure) : Prop :=
  ∀ call, event.call? = some call →
    (∃ id phase told, state.requests id = some phase ∧ phase.told? settings = some told) →
    Retells settings config call state.service

/-! ## What an `index()` call returns -/

omit [Unicode] [Interpreter]

/-- What a call returns and keeps: nothing new, the published snapshot, or a published record. -/
inductive IndexReturns (config : IndexConfig) (call : IndexCall Failure) (before : IndexState)
    (result : IndexResult Failure) (after : IndexState) : Prop where
  | raised (nothing : result.snapshot? = none)
      (same : after.retrievalSnapshot = before.retrievalSnapshot)
  | kept (published : RetrievalSnapshot) (before_ : before.retrievalSnapshot = some published)
      (returned : result.snapshot? = some published)
      (after_ : after.retrievalSnapshot = some published)
  | first (shown : RetrievalSnapshot) (before_ : before.retrievalSnapshot = none)
      (returned : result.snapshot? = some shown) (after_ : after.retrievalSnapshot = some shown)
  | rebuilt (shown : RetrievalSnapshot) (snapshot : SourceSignatureSnapshot)
      (record : ProjectionRecord) (due : Due config call before)
      (scanned : scanAnswer config call before = .ok snapshot)
      (changed : before.index.isSome = true →
        ¬ (refreshes config call before = false ∧ matchesPublished before snapshot = true))
      (found : rebuildRecord config call (refreshes config call before)
        (projectionSignatureDigest snapshot.projectionSignature) = .ok record)
      (index : shown.index = record.index)
      (digest : shown.projectionSignatureDigest =
        projectionSignatureDigest snapshot.projectionSignature)
      (returned : result.snapshot? = some shown) (after_ : after.retrievalSnapshot = some shown)

theorem checkSnapshot_returns {config : IndexConfig} {call : IndexCall Failure}
    {before state : IndexState} {snapshot : SourceSignatureSnapshot}
    (same : before.SamePublished state) (due : Due config call before)
    (scanned : scanAnswer config call before = .ok snapshot) :
    IndexReturns config call before
      (checkSnapshot config call (refreshes config call before) snapshot state).1
      (checkSnapshot config call (refreshes config call before) snapshot state).2 := by
  have matching : matchesPublished before snapshot = matchesPublished state snapshot :=
    matchesPublished_congr same snapshot
  unfold checkSnapshot
  dsimp only
  split
  next index published serving shownBefore =>
    split
    next changed =>
      split
      next => exact .raised rfl same.retrievalSnapshot.symm
      next record found =>
        refine .rebuilt _ snapshot record due scanned (fun _ unchanged => ?_) found rfl rfl rfl rfl
        simp [unchanged.1, ← matching, unchanged.2] at changed
    next =>
      split
      next nothing => exact .first _ (same.retrievalSnapshot.trans nothing) rfl rfl
      next current shown =>
        exact .kept current (same.retrievalSnapshot.trans shown) rfl shown
  next missing =>
    split
    next => exact .raised rfl same.retrievalSnapshot.symm
    next record found =>
      refine .rebuilt _ snapshot record due scanned (fun serving => ?_) found rfl rfl rfl rfl
      simp [same.index, missing] at serving

theorem indexSnapshot_returns (config : IndexConfig) (call : IndexCall Failure)
    (before : IndexState) :
    IndexReturns config call before (indexSnapshot config call before).1
      (indexSnapshot config call before).2 := by
  have unlocked : IndexReturns config call before
      (indexSnapshotUnlocked config call (refreshes config call before) (before.arrive call)).1
      (indexSnapshotUnlocked config call (refreshes config call before)
        (before.arrive call)).2 := by
    unfold indexSnapshotUnlocked
    split
    next published serving reusable => exact .kept published serving rfl serving
    next notReused =>
      dsimp only
      split
      next => exact .raised rfl rfl
      next snapshot scanned =>
        have due : Due config call before := by
          by_contra reusable
          have reusable := (Bool.not_eq_false _).mp reusable
          have serving : (before.arrive call).retrievalSnapshot ≠ none := by
            intro nothing
            simp [canReuseCachedIndex, nothing] at reusable
          obtain ⟨published, serving⟩ := Option.ne_none_iff_exists'.mp serving
          exact notReused published serving reusable
        exact checkSnapshot_returns ⟨rfl, rfl, rfl, rfl, rfl⟩ due scanned
  unfold refreshes at unlocked
  unfold indexSnapshot
  dsimp only
  split
  next stage failure after shape =>
    rw [shape] at unlocked
    exact unlocked
  next result after _ shape =>
    rw [shape] at unlocked
    cases unlocked with
    | raised nothing same => exact .raised nothing same
    | kept published before_ returned after_ => exact .kept published before_ returned after_
    | first shown before_ returned after_ => exact .first shown before_ returned after_
    | rebuilt shown snapshot record due scanned changed found index digest returned after_ =>
        exact .rebuilt shown snapshot record due scanned changed found index digest returned after_

theorem IndexReturns.published {config : IndexConfig} {call : IndexCall Failure}
    {before after : IndexState} {result : IndexResult Failure} {shown : RetrievalSnapshot}
    (returns : IndexReturns config call before result after)
    (returned : result.snapshot? = some shown) : after.retrievalSnapshot = some shown := by
  cases returns with
  | raised nothing same => simp [nothing] at returned
  | kept published before_ same after_ => exact after_.trans (same.symm.trans returned)
  | first first before_ same after_ => exact after_.trans (same.symm.trans returned)
  | rebuilt _ _ _ _ _ _ _ _ _ same after_ => exact after_.trans (same.symm.trans returned)

omit [Hashing] in
theorem IndexInvariant.index_isSome {config : IndexConfig} {state : IndexState}
    (invariant : IndexInvariant config state) {published : RetrievalSnapshot}
    (serving : state.retrievalSnapshot = some published) : state.index.isSome = true := by
  rcases invariant.published with unpublished | ⟨index, snapshot, digest, earlier, same⟩
  · simp [unpublished.retrievalSnapshot] at serving
  · rw [same.index]
    rfl

variable [Unicode] [Interpreter]

/-- A call that retells leaves something published that is described alike. -/
theorem IndexReturns.told {settings : ServiceSettings} {config : IndexConfig}
    {call : IndexCall Failure} {before after : IndexState} {result : IndexResult Failure}
    {published : RetrievalSnapshot} (returns : IndexReturns config call before result after)
    (invariant : IndexInvariant config before)
    (serving : before.retrievalSnapshot = some published)
    (retells : Retells settings config call before) :
    ∃ later, after.retrievalSnapshot = some later ∧
      later.told settings = published.told settings := by
  cases returns with
  | raised nothing same => exact ⟨published, same.trans serving, rfl⟩
  | kept same before_ returned after_ =>
      obtain rfl := Option.some.inj (before_.symm.trans serving)
      exact ⟨same, after_, rfl⟩
  | first shown before_ returned after_ => simp [before_] at serving
  | rebuilt shown snapshot record due scanned changed found index digest returned after_ =>
      refine ⟨shown, after_, ?_⟩
      rcases retells published snapshot serving due scanned with unchanged | alike
      · exact absurd unchanged (changed (invariant.index_isSome serving))
      · rw [RetrievalSnapshot.told, index, digest]
        exact alike record found

/-! ## Runs -/

/-- Every request between its two described calls describes what is published, and a request
with a manifest and an index describes one by the other. -/
structure ResponderInvariant (settings : ServiceSettings) (config : IndexConfig)
    (state : Responder) : Prop where
  service : IndexInvariant config state.service
  waiting : ∀ id phase told, state.requests id = some phase → phase.told? settings = some told →
    ∃ published, state.service.retrievalSnapshot = some published ∧
      published.told settings = told
  described : ∀ id includeDrafts manifest snapshot,
    state.requests id = some (.indexed includeDrafts (some manifest) snapshot) →
    manifest.told = snapshot.told settings
  answers : ∀ answer ∈ state.answers, answer.OneSnapshot settings

theorem ResponderInvariant.withRequest {settings : ServiceSettings} {config : IndexConfig}
    {state : Responder} (invariant : ResponderInvariant settings config state) (id : Nat)
    {phase : Option RequestPhase}
    (waiting : ∀ now told, phase = some now → now.told? settings = some told →
      ∃ published, state.service.retrievalSnapshot = some published ∧
        published.told settings = told)
    (described : ∀ includeDrafts manifest snapshot,
      phase = some (.indexed includeDrafts (some manifest) snapshot) →
      manifest.told = snapshot.told settings) :
    ResponderInvariant settings config (state.withRequest id phase) where
  service := invariant.service
  waiting := by
    intro other now told atPhase
    by_cases same : other = id
    · subst same
      simp only [Responder.withRequest, Function.update_self] at atPhase
      exact waiting now told atPhase
    · simp only [Responder.withRequest, Function.update_of_ne same] at atPhase
      exact invariant.waiting other now told atPhase
  described := by
    intro other includeDrafts manifest snapshot atPhase
    by_cases same : other = id
    · subst same
      simp only [Responder.withRequest, Function.update_self] at atPhase
      exact described includeDrafts manifest snapshot atPhase
    · simp only [Responder.withRequest, Function.update_of_ne same] at atPhase
      exact invariant.described other includeDrafts manifest snapshot atPhase
  answers := invariant.answers

/-- After any call the requests in flight describe what is published then. -/
theorem ResponderInvariant.called {settings : ServiceSettings} {config : IndexConfig}
    {state : Responder} (invariant : ResponderInvariant settings config state)
    (call : IndexCall Failure)
    (undisturbed : (∃ id phase told, state.requests id = some phase ∧
      phase.told? settings = some told) → Retells settings config call state.service) :
    ResponderInvariant settings config
      { state with service := (indexSnapshot config call state.service).2 } where
  service := indexInvariant_step invariant.service
  waiting := by
    intro id phase told atPhase describes
    obtain ⟨published, serving, rfl⟩ := invariant.waiting id phase told atPhase describes
    exact (indexSnapshot_returns config call state.service).told invariant.service serving
      (undisturbed ⟨id, phase, _, atPhase, describes⟩)
  described := invariant.described
  answers := invariant.answers

/-- A request that receives what is published describes it. -/
theorem ResponderInvariant.receive {settings : ServiceSettings} {config : IndexConfig}
    {state : Responder} (invariant : ResponderInvariant settings config state) (id : Nat)
    {phase : RequestPhase} (atPhase : state.requests id = some phase)
    {snapshot : RetrievalSnapshot} (serving : state.service.retrievalSnapshot = some snapshot)
    (tree : FileTree) :
    ResponderInvariant settings config (state.receive settings tree id snapshot phase) := by
  cases phase with
  | started request =>
      cases request with
      | sourceRefs includeDrafts =>
          refine invariant.withRequest id ?_ (by simp)
          rintro now told ⟨⟩ describes
          exact ⟨snapshot, serving, Option.some.inj describes⟩
      | sourceBundle includeDrafts enableA2aCompat =>
          refine invariant.withRequest id ?_ (by simp)
          rintro now told ⟨⟩ describes
          exact ⟨snapshot, serving, Option.some.inj describes⟩
  | described includeDrafts outer =>
      refine invariant.withRequest id (by rintro now told ⟨⟩; simp [RequestPhase.told?]) ?_
      intro includeDrafts manifest collected same
      cases same
      obtain ⟨published, current, told⟩ := invariant.waiting id _ _ atPhase rfl
      obtain rfl := Option.some.inj (serving.symm.trans current)
      exact told.symm
  | indexed includeDrafts outer collected =>
      have answered : ∀ response : SourceResponse,
          (⟨includeDrafts, collected, response⟩ : SourceAnswer).OneSnapshot settings →
          ResponderInvariant settings config
            { state with answers := state.answers ++ [⟨includeDrafts, collected, response⟩] } := by
        intro response one
        refine ⟨invariant.service, invariant.waiting, invariant.described, ?_⟩
        intro answer among
        rcases List.mem_append.mp among with earlier | new
        · exact invariant.answers answer earlier
        · obtain rfl := List.mem_singleton.mp new
          exact one
      refine (answered _ ?_).withRequest id (by simp) (by simp)
      cases outer with
      | none =>
          obtain ⟨published, current, told⟩ := invariant.waiting id _ _ atPhase rfl
          obtain rfl := Option.some.inj (serving.symm.trans current)
          exact ⟨⟨_, rfl⟩, congrArg Prod.fst told⟩
      | some manifest =>
          exact ⟨⟨_, rfl⟩, invariant.described id includeDrafts manifest collected atPhase⟩

theorem responderStep_invariant {settings : ServiceSettings} {config : IndexConfig}
    {before after : Responder} {event : ResponderEvent Failure}
    (invariant : ResponderInvariant settings config before)
    (undisturbed : Undisturbed settings config before event)
    (stepped : responderStep settings config before event = some after) :
    ResponderInvariant settings config after := by
  cases event with
  | begin id request =>
      simp only [responderStep] at stepped
      split at stepped
      · cases stepped
      · obtain rfl := Option.some.inj stepped
        refine invariant.withRequest id ?_ (by simp)
        rintro now told ⟨⟩ describes
        cases describes
  | proceed id call tree =>
      have called := invariant.called call (undisturbed call rfl)
      have returns := indexSnapshot_returns config call before.service
      simp only [responderStep] at stepped
      split at stepped
      · cases stepped
      next phase atPhase =>
        split at stepped
        · cases stepped
        · split at stepped
          · obtain rfl := Option.some.inj stepped
            exact called.withRequest id (by simp) (by simp)
          next snapshot returned =>
            obtain rfl := Option.some.inj stepped
            exact called.receive id atPhase (returns.published returned) tree
  | other call =>
      obtain rfl := Option.some.inj stepped
      exact invariant.called call (undisturbed call rfl)

/-- In every run in which no `index()` call moves on to a differently described index while a
request is between the two calls its response describes, every response describes the snapshot
its references were collected from. -/
theorem responses_oneSnapshot (settings : ServiceSettings) (config : IndexConfig)
    (cache : SignatureCache) (state : Responder)
    (reached : ReachableVia (@responderStep _ _ _ Failure settings config)
      (Undisturbed settings config) (.initial cache) state) :
    ∀ answer ∈ state.answers, answer.OneSnapshot settings := by
  have invariant : ResponderInvariant settings config state := by
    refine reached.invariant ?_ fun before event after invariant undisturbed stepped =>
      responderStep_invariant invariant undisturbed stepped
    refine ⟨@indexInvariant_of_reachable _ Failure config cache _ .refl, ?_, ?_, ?_⟩
    · intro id phase told atPhase
      cases atPhase
    · intro id includeDrafts manifest snapshot atPhase
      cases atPhase
    · intro answer among
      cases among
  exact invariant.answers

end Steps

section Sample

attribute [local instance] Unicode.ascii Value.plainInterpreter Hashing.transparent

/-- Source references are asked for while nothing changes. -/
def quietRequest : List (ResponderEvent Unit) :=
  [.begin 0 (.sourceRefs false), .proceed 0 (sizedCall 1 (.ok sampleIndex)) ⟨none, nofun, nofun⟩,
    .proceed 0 (sizedCall 1 (.ok sampleIndex)) ⟨none, nofun, nofun⟩]

/-- The source is renamed between the two calls of a request. -/
def renamedRequest : List (ResponderEvent Unit) :=
  [.begin 0 (.sourceRefs false), .proceed 0 (sizedCall 1 (.ok sampleIndex)) ⟨none, nofun, nofun⟩,
    .proceed 0 (sizedCall 2 (.ok { sampleIndex with title := "Renamed" })) ⟨none, nofun, nofun⟩]

def afterRequest (events : List (ResponderEvent Unit)) : Responder :=
  (exec (responderStep {} sampleConfig) (.initial (.source none)) events).getD
    (.initial (.source none))

theorem quietRequest_reachable :
    ReachableVia (@responderStep _ _ _ Unit {} sampleConfig) (Undisturbed {} sampleConfig)
      (.initial (.source none)) (afterRequest quietRequest) := by
  apply @reachableVia_of_exec _ _ _ _ _ _ quietRequest
  · refine ⟨?_, ?_⟩
    · intro call called
      cases called
    · rintro next ⟨⟩
      refine ⟨?_, ?_⟩
      · rintro call ⟨⟩ - published snapshot serving
        cases serving
      · rintro next ⟨⟩
        refine ⟨?_, fun _ _ => trivial⟩
        rintro call ⟨⟩ - published snapshot - - scanned
        cases scanned
        exact Or.inl ⟨rfl, rfl⟩
  · rfl

theorem responses_oneSnapshot_quiet :
    (ReachableVia (@responderStep _ _ _ Unit {} sampleConfig) (Undisturbed {} sampleConfig)
        (.initial (.source none)) (afterRequest quietRequest) ∧
      (afterRequest quietRequest).answers.length = 1) ∧
      ∀ answer ∈ (afterRequest quietRequest).answers, answer.OneSnapshot {} :=
  ⟨⟨quietRequest_reachable, rfl⟩,
    responses_oneSnapshot {} sampleConfig (.source none) _ quietRequest_reachable⟩

/-- The bundle id of a response is that of a source renamed after the references were collected. -/
theorem renamedRequest_mixed :
    ¬ ∀ state, Reachable (@responderStep _ _ _ Unit {} sampleConfig) (.initial (.source none))
        state → ∀ answer ∈ state.answers, answer.OneSnapshot {} := by
  intro claimed
  have reached : Reachable (responderStep {} sampleConfig) (.initial (.source none))
      (afterRequest renamedRequest) :=
    @reachable_of_exec _ _ _ _ _ renamedRequest rfl
  obtain ⟨-, one⟩ := claimed _ reached _ List.mem_cons_self
  exact absurd (show ("renamed" : Text) = "sample" from one) (by decide)

end Sample

end LlmWikiServe
