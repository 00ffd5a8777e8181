import LlmWikiServe.Foundation.Transition
import LlmWikiServe.Adapters
import LlmWikiServe.IndexService
import LlmWikiServe.Projection
import LlmWikiServe.SignatureFreshness

/-!
# Coherence of the projection store

Any number of services over one root take their `index()` calls step by step, share a
projection store and meet a source tree that is edited between any two steps.
-/

namespace LlmWikiServe

open Transition

/-- How far a call of a service has come, with the tree its signature was taken from. -/
inductive CallStage where
  | idle
  | scanned (scannedTree : FileTree) (refresh : Bool) (snapshot : SourceSignatureSnapshot)
  /-- The store had no record. -/
  | missed (scannedTree : FileTree) (snapshot : SourceSignatureSnapshot)
  | loaded (scannedTree : FileTree) (snapshot : SourceSignatureSnapshot) (index : WikiIndex)
  /-- A record was found or stored, and is to be published. -/
  | resolved (scannedTree : FileTree) (snapshot : SourceSignatureSnapshot) (index : WikiIndex)

structure CachingService where
  state : IndexState
  stage : CallStage

/-- A published index and the tree whose signature it was published for. -/
structure Publication where
  scannedTree : FileTree
  index : WikiIndex

structure CoherenceState where
  tree : FileTree
  /-- The trees that have existed so far. -/
  visited : List FileTree
  store : List (ProjectionKey × WikiIndex)
  services : Nat → CachingService
  publications : List Publication

inductive CoherenceEvent where
  /-- An edit of the source. -/
  | edit (tree : FileTree)
  /-- A call takes the source signature, and returns at once when it is the published one. -/
  | scan (service : Nat) (refresh : Bool)
  | lookUp (service : Nat) (sourceId : Text)
  | load (service : Nat)
  | put (service : Nat) (sourceId : Text)
  | publish (service : Nat)
  /-- The call raises. -/
  | abort (service : Nat)

section Coherence

variable [Unicode] [Interpreter] [Documents] [Host] [Hashing]

omit [Interpreter] [Documents] in
def treeDigest (tree : FileTree) : Text :=
  projectionSignatureDigest (sourceSignatureSnapshot rootName tree).projectionSignature

omit [Hashing] in
/-- `project_wiki(load_wiki(root))` -/
def loadIndex (tree : FileTree) : Except LoadError WikiIndex :=
  (loadWiki .auto tree).map projectWiki

omit [Interpreter] [Documents] in
/-- What a service without a producer's manifest reads from a tree. -/
def treeAnswers (tree : FileTree) : SourceAnswers Empty where
  isCurrent snapshot := .ok (isCurrent rootName tree snapshot)
  rescan := .ok (sourceSignatureSnapshot rootName tree)
  marker := .ok none

omit [Unicode] [Interpreter] [Documents] [Host] in
def projectionKey (namespaces : Nat → Text) (service : Nat) (sourceId : Text)
    (snapshot : SourceSignatureSnapshot) : ProjectionKey where
  namespace_ := namespaces service
  sourceId := sourceId
  projectionSignature := projectionSignatureDigest snapshot.projectionSignature

omit [Unicode] [Interpreter] [Documents] [Host] [Hashing] in
def stageAfterScan (state : IndexState) (tree : FileTree) (refresh : Bool)
    (snapshot : SourceSignatureSnapshot) : CallStage :=
  match state.index, state.retrievalSnapshot with
  | some index, published =>
      if refresh || !matchesPublished state snapshot then .scanned tree refresh snapshot
      else if published.isNone then .resolved tree snapshot index
      else .idle
  | none, _ => .scanned tree refresh snapshot

omit [Unicode] [Interpreter] [Documents] [Host] [Hashing] in
/-- Give a service another state and stage. -/
def CoherenceState.withService (state : CoherenceState) (service : Nat)
    (changed : CachingService) : CoherenceState :=
  { state with services := Function.update state.services service changed }

/-- One step; `namespaces` are the cache namespaces the services are configured with. -/
def coherenceStep (namespaces : Nat → Text) (state : CoherenceState) :
    CoherenceEvent → Option CoherenceState
  | .edit tree => some { state with tree, visited := tree :: state.visited }
  | .scan service refresh =>
      let called := state.services service
      match called.stage with
      | .idle =>
          match called.state.signatureCache.currentSnapshot (treeAnswers state.tree) refresh with
          | (.error failure, _) => failure.elim
          | (.ok snapshot, signatureCache) =>
              some (state.withService service
                ⟨{ called.state with signatureCache },
                  stageAfterScan called.state state.tree refresh snapshot⟩)
      | _ => none
  | .lookUp service sourceId =>
      let called := state.services service
      match called.stage with
      | .scanned scannedTree refresh snapshot =>
          let key := projectionKey namespaces service sourceId snapshot
          match if refresh then none else Keyed.get? state.store key with
          | some index =>
              some (state.withService service
                { called with stage := .resolved scannedTree snapshot index })
          | none =>
              some (state.withService service { called with stage := .missed scannedTree snapshot })
      | _ => none
  | .load service =>
      let called := state.services service
      match called.stage with
      | .missed scannedTree snapshot =>
          match loadIndex state.tree with
          | .error _ => some (state.withService service { called with stage := .idle })
          | .ok index =>
              some (state.withService service
                { called with stage := .loaded scannedTree snapshot index })
      | _ => none
  | .put service sourceId =>
      let called := state.services service
      match called.stage with
      | .loaded scannedTree snapshot index =>
          let key := projectionKey namespaces service sourceId snapshot
          some
            ({ state with store := Keyed.set state.store key index }.withService service
              { called with stage := .resolved scannedTree snapshot index })
      | _ => none
  | .publish service =>
      let called := state.services service
      match called.stage with
      | .resolved scannedTree snapshot index =>
          let digest := projectionSignatureDigest snapshot.projectionSignature
          some
            ({ state with publications := ⟨scannedTree, index⟩ :: state.publications }.withService
              service ⟨publishIndexSnapshot index snapshot digest called.state, .idle⟩)
      | _ => none
  | .abort service =>
      some (state.withService service { state.services service with stage := .idle })

omit [Unicode] [Interpreter] [Documents] [Host] [Hashing] in
/-- Services that have made no call, over a tree and an empty store. -/
def coherenceStart (tree : FileTree) : CoherenceState where
  tree := tree
  visited := [tree]
  store := []
  services := fun _ => ⟨IndexState.initial (.source none), .idle⟩
  publications := []

omit [Interpreter] [Documents] in
def LoadsWhatItScanned (state : CoherenceState) : CoherenceEvent → Prop
  | .load service =>
      ∀ scannedTree snapshot, (state.services service).stage = .missed scannedTree snapshot →
        treeDigest state.tree = projectionSignatureDigest snapshot.projectionSignature
  | _ => True

/-! ## The invariant -/

def ProjectedFrom (visited : List FileTree) (digest : Text) (index : WikiIndex) : Prop :=
  ∃ tree ∈ visited, treeDigest tree = digest ∧ loadIndex tree = .ok index

def StageCoherent (visited : List FileTree) : CallStage → Prop
  | .idle => True
  | .scanned scannedTree _ snapshot => snapshot = sourceSignatureSnapshot rootName scannedTree
  | .missed scannedTree snapshot => snapshot = sourceSignatureSnapshot rootName scannedTree
  | .loaded scannedTree snapshot index =>
      snapshot = sourceSignatureSnapshot rootName scannedTree ∧
        ProjectedFrom visited (treeDigest scannedTree) index
  | .resolved scannedTree snapshot index =>
      snapshot = sourceSignatureSnapshot rootName scannedTree ∧
        ProjectedFrom visited (treeDigest scannedTree) index

omit [Interpreter] [Documents] in
/-- The signature cache holds the snapshot of some tree. -/
def CacheOriginal (cache : SignatureCache) : Prop :=
  ∃ cached, cache = .source cached ∧
    ∀ snapshot, cached = some snapshot → ∃ tree, snapshot = sourceSignatureSnapshot rootName tree

structure ServiceCoherent (visited : List FileTree) (service : CachingService) : Prop where
  cache : CacheOriginal service.state.signatureCache
  published : service.state.index.isSome → service.state.retrievalSnapshot.isSome
  stage : StageCoherent visited service.stage

structure StoreCoherent (state : CoherenceState) : Prop where
  current : state.tree ∈ state.visited
  records : ∀ entry ∈ state.store,
    ProjectedFrom state.visited entry.1.projectionSignature entry.2
  services : ∀ service, ServiceCoherent state.visited (state.services service)
  publications : ∀ publication ∈ state.publications,
    ProjectedFrom state.visited (treeDigest publication.scannedTree) publication.index

theorem ProjectedFrom.visit {visited : List FileTree} {digest : Text} {index : WikiIndex}
    (projected : ProjectedFrom visited digest index) (tree : FileTree) :
    ProjectedFrom (tree :: visited) digest index := by
  rcases projected with ⟨source, sourceIn, filed, loaded⟩
  exact ⟨source, List.mem_cons_of_mem _ sourceIn, filed, loaded⟩

theorem StageCoherent.visit {visited : List FileTree} {stage : CallStage}
    (coherent : StageCoherent visited stage) (tree : FileTree) :
    StageCoherent (tree :: visited) stage := by
  cases stage with
  | idle => trivial
  | scanned scannedTree refresh snapshot => exact coherent
  | missed scannedTree snapshot => exact coherent
  | loaded scannedTree snapshot index => exact ⟨coherent.1, coherent.2.visit tree⟩
  | resolved scannedTree snapshot index => exact ⟨coherent.1, coherent.2.visit tree⟩

theorem storeCoherent_start (tree : FileTree) : StoreCoherent (coherenceStart tree) where
  current := List.mem_singleton_self tree
  records := by simp [coherenceStart]
  services := fun _ => ⟨⟨none, rfl, by simp⟩, by simp [coherenceStart, IndexState.initial], trivial⟩
  publications := by simp [coherenceStart]

theorem StoreCoherent.withService {state : CoherenceState} (coherent : StoreCoherent state)
    {changed : CachingService} (service : Nat)
    (serviceCoherent : ServiceCoherent state.visited changed) :
    StoreCoherent (state.withService service changed) := by
  refine ⟨coherent.current, coherent.records, ?_, coherent.publications⟩
  intro other
  by_cases same : other = service
  · subst same
    simpa [CoherenceState.withService] using serviceCoherent
  · simpa [CoherenceState.withService, Function.update_of_ne same] using coherent.services other

omit [Interpreter] [Documents] in
theorem currentSnapshot_of_original (injective : Function.Injective Hashing.blake2b)
    {cache : SignatureCache} (original : CacheOriginal cache) (tree : FileTree) (refresh : Bool) :
    ∃ after, cache.currentSnapshot (treeAnswers tree) refresh =
        (.ok (sourceSignatureSnapshot rootName tree), after) ∧ CacheOriginal after := by
  rcases original with ⟨cached, rfl, origin⟩
  have answer := @currentSnapshot_eq _ _ rootName injective refresh tree _ origin
  refine ⟨.source (some (sourceSignatureSnapshot rootName tree)), ?_,
    ⟨_, rfl, fun snapshot same => ⟨tree, (Option.some.inj same).symm⟩⟩⟩
  unfold currentSnapshot at answer
  simp only [SignatureCache.currentSnapshot, sourceCacheSnapshot, treeAnswers]
  cases cached with
  | none => rfl
  | some snapshot =>
      cases refresh with
      | true => rfl
      | false =>
          cases kept : isCurrent rootName tree snapshot with
          | true => simp_all
          | false => simp [kept]

omit [Unicode] [Interpreter] [Documents] [Host] [Hashing] in
/-- A call whose signature is the published one goes on without a rebuild. -/
theorem stageAfterScan_cases {state : IndexState} (published : state.index.isSome →
      state.retrievalSnapshot.isSome) (tree : FileTree) (refresh : Bool)
    (snapshot : SourceSignatureSnapshot) :
    stageAfterScan state tree refresh snapshot = .scanned tree refresh snapshot ∨
      stageAfterScan state tree refresh snapshot = .idle := by
  unfold stageAfterScan
  cases indexed : state.index with
  | none => exact Or.inl rfl
  | some index =>
      have some_ := Option.isSome_iff_exists.mp (published (by simp [indexed]))
      rcases some_ with ⟨current, currentIs⟩
      simp only [currentIs]
      split
      · exact Or.inl rfl
      · exact Or.inr rfl

theorem storeCoherent_step (injective : Function.Injective Hashing.blake2b)
    {namespaces : Nat → Text} {before after : CoherenceState} {event : CoherenceEvent}
    (coherent : StoreCoherent before) (allowed : LoadsWhatItScanned before event)
    (stepped : coherenceStep namespaces before event = some after) : StoreCoherent after := by
  cases event with
  | edit tree =>
      rw [← Option.some.inj stepped]
      refine ⟨List.mem_cons_self, ?_, ?_, ?_⟩
      · exact fun entry entryIn => (coherent.records entry entryIn).visit tree
      · intro service
        have kept := coherent.services service
        exact ⟨kept.cache, kept.published, kept.stage.visit tree⟩
      · exact fun publication publishedIn =>
          (coherent.publications publication publishedIn).visit tree
  | scan service refresh =>
      have called := coherent.services service
      rcases currentSnapshot_of_original injective called.cache before.tree refresh with
        ⟨cache, answer, original⟩
      simp only [coherenceStep, answer] at stepped
      split at stepped
      next =>
        rw [← Option.some.inj stepped]
        refine coherent.withService service ⟨original, called.published, ?_⟩
        rcases stageAfterScan_cases called.published before.tree refresh
          (sourceSignatureSnapshot rootName before.tree) with scanned | idle
        · rw [scanned]
          rfl
        · rw [idle]
          trivial
      next => simp at stepped
  | lookUp service sourceId =>
      have called := coherent.services service
      simp only [coherenceStep] at stepped
      split at stepped
      next scannedTree refresh snapshot atStage =>
        have signature := called.stage
        rw [atStage] at signature
        split at stepped
        next index found =>
          rw [← Option.some.inj stepped]
          have recorded : ProjectedFrom before.visited (treeDigest scannedTree) index := by
            have stored : Keyed.get? before.store (projectionKey namespaces service sourceId
                snapshot) = some index := by
              split at found
              · simp at found
              · exact found
            have filed := coherent.records _ (Keyed.mem_of_get? stored)
            rw [show snapshot = sourceSignatureSnapshot rootName scannedTree from signature]
              at filed
            exact filed
          exact coherent.withService service ⟨called.cache, called.published, signature, recorded⟩
        next =>
          rw [← Option.some.inj stepped]
          exact coherent.withService service ⟨called.cache, called.published, signature⟩
      next => simp at stepped
  | load service =>
      have called := coherent.services service
      simp only [coherenceStep] at stepped
      split at stepped
      next scannedTree snapshot atStage =>
        have signature := called.stage
        rw [atStage] at signature
        split at stepped
        next => 
          rw [← Option.some.inj stepped]
          exact coherent.withService service ⟨called.cache, called.published, trivial⟩
        next index loaded =>
          rw [← Option.some.inj stepped]
          have filed : treeDigest before.tree = treeDigest scannedTree := by
            rw [allowed scannedTree snapshot atStage, signature]
            rfl
          exact coherent.withService service ⟨called.cache, called.published, signature,
            before.tree, coherent.current, filed, loaded⟩
      next => simp at stepped
  | put service sourceId =>
      have called := coherent.services service
      simp only [coherenceStep] at stepped
      split at stepped
      next scannedTree snapshot index atStage =>
        have known := called.stage
        rw [atStage] at known
        rw [← Option.some.inj stepped]
        have stored : StoreCoherent { before with
            store := Keyed.set before.store
              (projectionKey namespaces service sourceId snapshot) index } := by
          refine ⟨coherent.current, ?_, coherent.services, coherent.publications⟩
          intro entry entryIn
          rcases Keyed.mem_set entryIn with rfl | older
          · rw [known.1]
            exact known.2
          · exact coherent.records entry older
        exact stored.withService service ⟨called.cache, called.published, known⟩
      next => simp at stepped
  | publish service =>
      have called := coherent.services service
      simp only [coherenceStep] at stepped
      split at stepped
      next scannedTree snapshot index atStage =>
        have known := called.stage
        rw [atStage] at known
        rw [← Option.some.inj stepped]
        have published : StoreCoherent { before with
            publications := ⟨scannedTree, index⟩ :: before.publications } := by
          refine ⟨coherent.current, coherent.records, coherent.services, ?_⟩
          intro publication publishedIn
          rcases List.mem_cons.mp publishedIn with rfl | older
          · exact known.2
          · exact coherent.publications publication older
        exact published.withService service ⟨called.cache, fun _ => rfl, trivial⟩
      next => simp at stepped
  | abort service =>
      have called := coherent.services service
      rw [← Option.some.inj stepped]
      exact coherent.withService service ⟨called.cache, called.published, trivial⟩

/-- In every run whose loads find the projection signature their calls have taken, every record
of the store is the projection of a tree that existed and is filed under the record's signature,
and so is every index published for the signature of a scanned tree. -/
theorem store_coherent (injective : Function.Injective Hashing.blake2b)
    {namespaces : Nat → Text} {start : FileTree} {state : CoherenceState}
    (reached : ReachableVia (coherenceStep namespaces) LoadsWhatItScanned (coherenceStart start)
      state) :
    (∀ entry ∈ state.store,
        ∃ tree ∈ state.visited, treeDigest tree = entry.1.projectionSignature ∧
          loadIndex tree = .ok entry.2) ∧
      ∀ publication ∈ state.publications,
        ∃ tree ∈ state.visited, treeDigest tree = treeDigest publication.scannedTree ∧
          loadIndex tree = .ok publication.index := by
  have coherent : StoreCoherent state :=
    reached.invariant (storeCoherent_start start)
      fun _ _ _ coherent allowed stepped => storeCoherent_step injective coherent allowed stepped
  exact ⟨coherent.records, coherent.publications⟩

end Coherence

section Sample

attribute [local instance] Unicode.ascii Value.plainInterpreter Documents.lines Host.plain
  Hashing.transparent

def oldTree : FileTree :=
  .ofChildren ⟨1, 1, 0, 0⟩ [("a.md", FileTree.textFile 2 "old")] (by decide)

def newTree : FileTree :=
  .ofChildren ⟨1, 1, 0, 0⟩ [("a.md", FileTree.textFile 2 "newer")] (by decide)

/-- The services after some events from the old tree. -/
def afterEvents (events : List CoherenceEvent) : CoherenceState :=
  (exec (coherenceStep fun _ => "local") (coherenceStart oldTree) events).getD
    (coherenceStart oldTree)

/-- A call with no edit between its scan and its load. -/
def quietCall : List CoherenceEvent :=
  [.scan 0 false, .lookUp 0 "wiki", .load 0, .put 0 "wiki", .publish 0]

/-- A call whose tree is edited between its scan and its load. -/
def racedCall : List CoherenceEvent :=
  [.scan 0 false, .edit newTree, .lookUp 0 "wiki", .load 0, .put 0 "wiki", .publish 0]

theorem quietCall_reachable :
    ReachableVia (coherenceStep fun _ => "local") LoadsWhatItScanned (coherenceStart oldTree)
      (afterEvents quietCall) := by
  refine @reachableVia_of_exec _ _ _ _ _ _ quietCall ?_ rfl
  refine ⟨trivial, fun scanned first => ⟨trivial, fun missed second => ⟨?_, fun _ _ =>
    ⟨trivial, fun _ _ => ⟨trivial, fun _ _ => trivial⟩⟩⟩⟩⟩
  intro scannedTree snapshot atStage
  cases first
  cases second
  cases atStage
  rfl

theorem store_coherent_quietCall :
    (Function.Injective (@Hashing.blake2b Hashing.transparent) ∧
      (afterEvents quietCall).publications.length = 1) ∧
      (∀ entry ∈ (afterEvents quietCall).store,
        ∃ tree ∈ (afterEvents quietCall).visited,
          treeDigest tree = entry.1.projectionSignature ∧ loadIndex tree = .ok entry.2) ∧
      ∀ publication ∈ (afterEvents quietCall).publications,
        ∃ tree ∈ (afterEvents quietCall).visited,
          treeDigest tree = treeDigest publication.scannedTree ∧
            loadIndex tree = .ok publication.index :=
  ⟨⟨transparent_injective, rfl⟩, store_coherent transparent_injective quietCall_reachable⟩

def loadedTexts (loaded : Except LoadError WikiIndex) : List Text :=
  match loaded with
  | .ok index => index.pages.map WikiPage.text
  | .error _ => []

/-- An edit between scan and load files the new tree's projection under the old signature. -/
theorem racedCall_misfiled :
    ¬ ∀ (namespaces : Nat → Text) (start : FileTree) (state : CoherenceState),
      Reachable (coherenceStep namespaces) (coherenceStart start) state →
        ∀ entry ∈ state.store,
          ∃ tree ∈ state.visited, treeDigest tree = entry.1.projectionSignature ∧
            loadIndex tree = .ok entry.2 := by
  intro claimed
  have reached : Reachable (coherenceStep fun _ => "local") (coherenceStart oldTree)
      (afterEvents racedCall) := @reachable_of_exec _ _ _ _ _ racedCall rfl
  have stored : ∃ key index, (key, index) ∈ (afterEvents racedCall).store ∧
      key.projectionSignature = treeDigest oldTree ∧ loadIndex newTree = .ok index :=
    ⟨_, _, List.mem_singleton_self _, rfl, rfl⟩
  rcases stored with ⟨key, index, entryIn, filed, newLoaded⟩
  rcases claimed _ _ _ reached _ entryIn with ⟨tree, treeIn, digest, loaded⟩
  have trees : tree = newTree ∨ tree = oldTree := by
    have visited : (afterEvents racedCall).visited = [newTree, oldTree] := rfl
    rw [visited] at treeIn
    simpa using treeIn
  rcases trees with rfl | rfl
  · exact absurd (digest.trans filed) (by decide)
  · have texts : loadedTexts (loadIndex oldTree) = loadedTexts (loadIndex newTree) := by
      rw [loaded, newLoaded]
    exact absurd texts (by decide)

end Sample

end LlmWikiServe
