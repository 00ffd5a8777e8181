import LlmWikiServe.Foundation.Transition
import LlmWikiServe.IndexService

/-!
# The producer's marker protocol

A producer edits the content and announces every finished build by a marker state never
used before.  The server reads the marker first and scans the content only when the
marker differs from the one it has cached, while the producer may go on writing.
-/

namespace LlmWikiServe

open Transition

section Protocol

variable [Unicode] [Hashing]

omit [Unicode] [Hashing] in
def markerSnapshot (state : PathState) : SourceSignatureSnapshot where
  signature := [(RelPath.asPosix state.relativePath, state.mtimeNs, state.size)]
  projectionSignature := []
  paths := [state]
  freshnessSignature := [state]

/-- The snapshot of a marker file below the root, a linked marker being refused. -/
def producerManifestSignatureSnapshot (rootName : Text) (manifest : RelPath) (tree : FileTree) :
    Option SourceSignatureSnapshot :=
  (pathState rootName manifest .file false (tree.at? manifest)).map markerSnapshot

/-- How far a call of the server has come. -/
inductive CallProgress where
  | none
  /-- Called, the marker not read yet; whether no build was in progress at the start. -/
  | started (refresh startedIdle : Bool)
  /-- The marker read, and the trees the content scan has met so far; whether no build has been
  in progress since the marker was read. -/
  | marked (refresh startedIdle : Bool) (marker : SourceSignatureSnapshot)
      (observed : List FileTree) (undisturbed : Bool)

structure ProtocolState where
  tree : FileTree
  building : Bool
  /-- The marker states written so far. -/
  markers : List SourceSignatureSnapshot
  cache : SignatureCache
  call : CallProgress

inductive ProtocolEvent where
  /-- A content write of a build. -/
  | write (tree : FileTree)
  /-- The marker write that ends a build. -/
  | publish (tree : FileTree)
  | begin (refresh : Bool)
  | readMarker
  /-- The scan reads a part of the content. -/
  | observe
  /-- The call returns, a scan that took place having produced the content snapshot. -/
  | answer (content : SourceSignatureSnapshot)

def CallProgress.disturb : CallProgress → CallProgress
  | .marked refresh startedIdle marker observed _ =>
      .marked refresh startedIdle marker observed false
  | call => call

omit [Unicode] [Hashing] in
/-- What the file system answers to a call that read the marker and may have scanned. -/
def protocolAnswers (marker content : SourceSignatureSnapshot) : SourceAnswers Unit where
  isCurrent := fun _ => .ok false
  rescan := .ok content
  marker := .ok (some marker)

omit [Unicode] [Hashing] in
/-- The snapshot a call returns and the cache it leaves. -/
def protocolAnswer (state : ProtocolState) (content : SourceSignatureSnapshot) :
    Option (SourceSignatureSnapshot × SignatureCache) :=
  match state.call with
  | .marked refresh _ marker _ _ =>
      match state.cache.currentSnapshot (protocolAnswers marker content) refresh with
      | (.ok snapshot, cache) => some (snapshot, cache)
      | (.error _, _) => none
  | _ => none

def protocolStep (rootName : Text) (manifest : RelPath) (state : ProtocolState) :
    ProtocolEvent → Option ProtocolState
  | .write tree =>
      if producerManifestSignatureSnapshot rootName manifest tree =
          producerManifestSignatureSnapshot rootName manifest state.tree then
        some { state with tree, building := true, call := state.call.disturb }
      else none
  | .publish tree =>
      match producerManifestSignatureSnapshot rootName manifest tree with
      | none => none
      | some marker =>
          if marker ∈ state.markers then none
          else
            some
              { state with
                tree
                building := false
                markers := marker :: state.markers
                call := state.call.disturb }
  | .begin refresh =>
      match state.call with
      | .none => some { state with call := .started refresh (!state.building) }
      | _ => none
  | .readMarker =>
      match state.call, producerManifestSignatureSnapshot rootName manifest state.tree with
      | .started refresh startedIdle, some marker =>
          some { state with call := .marked refresh startedIdle marker [] (!state.building) }
      | _, _ => none
  | .observe =>
      match state.call with
      | .marked refresh startedIdle marker observed undisturbed =>
          some
            { state with
              call := .marked refresh startedIdle marker (state.tree :: observed) undisturbed }
      | _ => none
  | .answer content =>
      (protocolAnswer state content).map fun returned =>
        { state with cache := returned.2, call := .none }

def ScanYields (rootName : Text) (observed : List FileTree) (content : SourceSignatureSnapshot) :
    Prop :=
  observed ≠ [] ∧
    ∀ tree, (∀ seen ∈ observed, seen = tree) → content = sourceSignatureSnapshot rootName tree

/-- A call that read the marker scans unless the cache holds a snapshot under it. -/
def SignatureCache.rescans (refresh : Bool) (marker : SourceSignatureSnapshot) :
    SignatureCache → Bool
  | .source _ => true
  | .producer cached _ => refresh || !markerMatches cached marker

def ScansHonestly (rootName : Text) (state : ProtocolState) : ProtocolEvent → Prop
  | .answer content =>
      ∀ refresh startedIdle marker observed undisturbed,
        state.call = .marked refresh startedIdle marker observed undisturbed →
        state.cache.rescans refresh marker = true → ScanYields rootName observed content
  | _ => True

/-- A server that has made no call yet, a build being in progress or not. -/
def protocolStart (tree : FileTree) (building : Bool) (marker : SourceSignatureSnapshot) :
    ProtocolState where
  tree := tree
  building := building
  markers := [marker]
  cache := .producer none none
  call := .none

/-! ## The invariant -/

omit [Unicode] [Hashing] in
theorem markerMatches_iff {snapshot marker : SourceSignatureSnapshot} :
    markerMatches (some snapshot) marker = true ↔
      snapshot.signature = marker.signature ∧
        snapshot.freshnessSignature = marker.freshnessSignature := by
  simp [markerMatches]

/-- What a marker in the cache, or in a running call, says about the content.  A marker that is
still the current one was never replaced, so while no build is in progress nothing was written
since it was read. -/
structure ProtocolInvariant (rootName : Text) (manifest : RelPath) (state : ProtocolState) :
    Prop where
  current : ∃ marker ∈ state.markers,
    producerManifestSignatureSnapshot rootName manifest state.tree = some marker
  markers : ∀ marker ∈ state.markers, ∃ recorded, marker = markerSnapshot recorded
  cache : ∃ cached fallback, state.cache = .producer cached fallback ∧
    ∀ snapshot, cached = some snapshot →
      (∃ marker ∈ state.markers, markerMatches (some snapshot) marker = true) ∧
        ∀ marker, producerManifestSignatureSnapshot rootName manifest state.tree = some marker →
          state.building = false → markerMatches (some snapshot) marker = true →
          snapshot.projectionSignature =
            (sourceSignatureSnapshot rootName state.tree).projectionSignature
  call : ∀ refresh startedIdle marker observed undisturbed,
    state.call = .marked refresh startedIdle marker observed undisturbed →
      marker ∈ state.markers ∧
        (state.building = false →
          producerManifestSignatureSnapshot rootName manifest state.tree = some marker →
          ∀ seen ∈ observed, seen = state.tree) ∧
        (undisturbed = true → state.building = false ∧
          producerManifestSignatureSnapshot rootName manifest state.tree = some marker)

omit [Unicode] [Hashing] in
theorem markerSnapshot_eq_of_matches {snapshot : SourceSignatureSnapshot} {left right : PathState}
    (leftMatches : markerMatches (some snapshot) (markerSnapshot left) = true)
    (rightMatches : markerMatches (some snapshot) (markerSnapshot right) = true) :
    markerSnapshot left = markerSnapshot right := by
  have leftFresh := (markerMatches_iff.mp leftMatches).2
  have rightFresh := (markerMatches_iff.mp rightMatches).2
  have states : [left] = [right] := leftFresh.symm.trans rightFresh
  rw [List.cons.inj states |>.1]

theorem producerManifest_marker {rootName : Text} {manifest : RelPath} {tree : FileTree}
    {marker : SourceSignatureSnapshot}
    (found : producerManifestSignatureSnapshot rootName manifest tree = some marker) :
    ∃ recorded, marker = markerSnapshot recorded := by
  rcases Option.map_eq_some_iff.mp found with ⟨recorded, _, rfl⟩
  exact ⟨recorded, rfl⟩

omit [Unicode] [Hashing] in
theorem protocolAnswer_cases {state : ProtocolState} {content snapshot : SourceSignatureSnapshot}
    {cache : SignatureCache} {cached fallback : Option SourceSignatureSnapshot}
    (kept : state.cache = .producer cached fallback)
    (answered : protocolAnswer state content = some (snapshot, cache)) :
    ∃ refresh startedIdle marker observed undisturbed,
      state.call = .marked refresh startedIdle marker observed undisturbed ∧
        ((cached = some snapshot ∧ markerMatches (some snapshot) marker = true ∧
            cache = .producer cached fallback) ∨
          (state.cache.rescans refresh marker = true ∧ snapshot = pairMarker marker content ∧
            cache = .producer (some snapshot) fallback)) := by
  unfold protocolAnswer at answered
  split at answered
  next refresh startedIdle marker observed undisturbed called =>
    refine ⟨refresh, startedIdle, marker, observed, undisturbed, called, ?_⟩
    rw [kept] at answered ⊢
    cases cached with
    | none =>
        simp only [SignatureCache.currentSnapshot, protocolAnswers, Option.some.injEq,
          Prod.mk.injEq] at answered
        refine Or.inr ⟨by simp [SignatureCache.rescans, markerMatches], answered.1.symm, ?_⟩
        rw [← answered.2, answered.1]
    | some held =>
        by_cases reuse : (!refresh && markerMatches (some held) marker) = true
        · simp only [SignatureCache.currentSnapshot, protocolAnswers, reuse, if_true,
            Option.some.injEq, Prod.mk.injEq] at answered
          rw [Bool.and_eq_true] at reuse
          exact Or.inl ⟨by rw [answered.1], answered.1 ▸ reuse.2, answered.2.symm⟩
        · simp only [SignatureCache.currentSnapshot, protocolAnswers, reuse, Bool.false_eq_true,
            if_false, Option.some.injEq, Prod.mk.injEq] at answered
          refine Or.inr ⟨?_, answered.1.symm, by rw [← answered.2, answered.1]⟩
          cases refresh <;> simp_all [SignatureCache.rescans]
  next => simp at answered

theorem protocolInvariant_start {rootName : Text} {manifest : RelPath} {tree : FileTree}
    (building : Bool) {marker : SourceSignatureSnapshot}
    (present : producerManifestSignatureSnapshot rootName manifest tree = some marker) :
    ProtocolInvariant rootName manifest (protocolStart tree building marker) where
  current := ⟨marker, List.mem_singleton_self marker, present⟩
  markers := by
    intro other otherIn
    rw [List.mem_singleton.mp otherIn]
    exact producerManifest_marker present
  cache := ⟨none, none, rfl, by simp⟩
  call := by simp [protocolStart]

/-- What a call returns is fresh when its marker is still current and no build is in progress. -/
theorem answer_fresh {rootName : Text} {manifest : RelPath} {state : ProtocolState}
    (invariant : ProtocolInvariant rootName manifest state)
    {content snapshot marker : SourceSignatureSnapshot} {cache : SignatureCache}
    (honest : ScansHonestly rootName state (.answer content))
    (answered : protocolAnswer state content = some (snapshot, cache))
    (idle : state.building = false)
    (current : producerManifestSignatureSnapshot rootName manifest state.tree = some marker)
    (matching : markerMatches (some snapshot) marker = true) :
    snapshot.projectionSignature =
      (sourceSignatureSnapshot rootName state.tree).projectionSignature := by
  rcases invariant.cache with ⟨cached, fallback, kept, cachedFresh⟩
  rcases protocolAnswer_cases kept answered with
    ⟨refresh, startedIdle, read, observed, undisturbed, called, ⟨held, _, _⟩ | ⟨scans, paired, _⟩⟩
  · exact (cachedFresh snapshot held).2 marker current idle matching
  · rcases invariant.call refresh startedIdle read observed undisturbed called with
      ⟨readKnown, unchanged, _⟩
    rcases invariant.markers read readKnown with ⟨readState, readShape⟩
    rcases producerManifest_marker current with ⟨currentState, currentShape⟩
    have readMatches : markerMatches (some snapshot) read = true :=
      markerMatches_iff.mpr ⟨by rw [paired]; rfl, by rw [paired]; rfl⟩
    rw [readShape] at readMatches
    rw [currentShape] at matching
    have same := markerSnapshot_eq_of_matches readMatches matching
    have stillRead : producerManifestSignatureSnapshot rootName manifest state.tree =
        some read := by rw [current, currentShape, readShape, same]
    have yields := honest refresh startedIdle read observed undisturbed called scans
    have fresh := yields.2 state.tree (unchanged idle stillRead)
    rw [paired, fresh]
    rfl

theorem protocolInvariant_step {rootName : Text} {manifest : RelPath}
    {before after : ProtocolState} {event : ProtocolEvent}
    (invariant : ProtocolInvariant rootName manifest before)
    (honest : ScansHonestly rootName before event)
    (stepped : protocolStep rootName manifest before event = some after) :
    ProtocolInvariant rootName manifest after := by
  rcases invariant.cache with ⟨cached, fallback, kept, cachedFresh⟩
  cases event with
  | write tree =>
      simp only [protocolStep] at stepped
      split at stepped
      next sameMarker =>
        rw [← Option.some.inj stepped]
        refine ⟨?_, invariant.markers, ⟨cached, fallback, kept, ?_⟩, ?_⟩
        · rcases invariant.current with ⟨marker, markerIn, found⟩
          exact ⟨marker, markerIn, sameMarker.trans found⟩
        · intro snapshot held
          exact ⟨(cachedFresh snapshot held).1, fun _ _ idle => by simp at idle⟩
        · intro refresh startedIdle marker observed undisturbed called
          unfold CallProgress.disturb at called
          split at called
          next running =>
            cases called
            exact ⟨(invariant.call _ _ _ _ _ running).1, fun idle => by simp at idle,
              fun calm => by simp at calm⟩
          next other => exact absurd called (other _ _ _ _ _)
      next => simp at stepped
  | publish tree =>
      simp only [protocolStep] at stepped
      split at stepped
      next => simp at stepped
      next marker found =>
        split at stepped
        next => simp at stepped
        next fresh =>
          rw [← Option.some.inj stepped]
          refine ⟨⟨marker, List.mem_cons_self, found⟩, ?_, ⟨cached, fallback, kept, ?_⟩, ?_⟩
          · intro other otherIn
            rcases List.mem_cons.mp otherIn with rfl | older
            · exact producerManifest_marker found
            · exact invariant.markers other older
          · intro snapshot held
            rcases (cachedFresh snapshot held).1 with ⟨old, oldIn, oldMatches⟩
            refine ⟨⟨old, List.mem_cons_of_mem _ oldIn, oldMatches⟩, ?_⟩
            intro current currentFound _ matching
            -- A cached marker is an older one, and the new marker differs from all of them.
            exfalso
            rw [found] at currentFound
            rw [← Option.some.inj currentFound] at matching
            rcases invariant.markers old oldIn with ⟨oldState, oldShape⟩
            rcases producerManifest_marker found with ⟨newState, newShape⟩
            rw [oldShape] at oldMatches oldIn
            rw [newShape] at matching fresh
            rw [markerSnapshot_eq_of_matches oldMatches matching] at oldIn
            exact fresh oldIn
          · intro refresh startedIdle read observed undisturbed called
            unfold CallProgress.disturb at called
            split at called
            next running =>
              cases called
              have readKnown := (invariant.call _ _ _ _ _ running).1
              refine ⟨List.mem_cons_of_mem _ readKnown, ?_, fun calm => by simp at calm⟩
              intro _ stillRead
              have equality : marker = read := Option.some.inj (found.symm.trans stillRead)
              exact absurd (equality ▸ readKnown) fresh
            next other => exact absurd called (other _ _ _ _ _)
  | begin refresh =>
      simp only [protocolStep] at stepped
      split at stepped
      · rw [← Option.some.inj stepped]
        exact ⟨invariant.current, invariant.markers, invariant.cache, by simp⟩
      · simp at stepped
  | readMarker =>
      simp only [protocolStep] at stepped
      split at stepped
      next refresh startedIdle marker called found =>
        rw [← Option.some.inj stepped]
        refine ⟨invariant.current, invariant.markers, invariant.cache, ?_⟩
        intro refresh startedIdle read observed undisturbed called
        cases called
        rcases invariant.current with ⟨known, knownIn, knownFound⟩
        have equality : known = marker := Option.some.inj (knownFound.symm.trans found)
        exact ⟨equality ▸ knownIn, by simp, fun calm => ⟨by simpa using calm, found⟩⟩
      next => simp at stepped
  | observe =>
      simp only [protocolStep] at stepped
      split at stepped
      next refresh startedIdle marker observed undisturbed called =>
        rw [← Option.some.inj stepped]
        refine ⟨invariant.current, invariant.markers, invariant.cache, ?_⟩
        intro _ _ _ _ _ recorded
        cases recorded
        rcases invariant.call _ _ _ _ _ called with ⟨known, unchanged, calm⟩
        refine ⟨known, ?_, calm⟩
        intro idle stillRead seen seenIn
        rcases List.mem_cons.mp seenIn with rfl | earlier
        · rfl
        · exact unchanged idle stillRead seen earlier
      next => simp at stepped
  | answer content =>
      simp only [protocolStep] at stepped
      rcases Option.map_eq_some_iff.mp stepped with ⟨⟨snapshot, cache⟩, answered, rfl⟩
      refine ⟨invariant.current, invariant.markers, ?_, by simp⟩
      rcases protocolAnswer_cases kept answered with
        ⟨refresh, startedIdle, marker, observed, undisturbed, called,
          ⟨_, _, same⟩ | ⟨_, paired, same⟩⟩
      · exact ⟨cached, fallback, same, cachedFresh⟩
      · refine ⟨some snapshot, fallback, same, ?_⟩
        intro other held
        rw [← Option.some.inj held]
        refine ⟨⟨marker, (invariant.call _ _ _ _ _ called).1, ?_⟩, ?_⟩
        · exact markerMatches_iff.mpr ⟨by rw [paired]; rfl, by rw [paired]; rfl⟩
        · intro current found idle matching
          exact answer_fresh invariant honest answered idle found matching

theorem protocolInvariant_of_reachable {rootName : Text} {manifest : RelPath} {tree : FileTree}
    {building : Bool} {marker : SourceSignatureSnapshot} {state : ProtocolState}
    (present : producerManifestSignatureSnapshot rootName manifest tree = some marker)
    (reached : ReachableVia (protocolStep rootName manifest) (ScansHonestly rootName)
      (protocolStart tree building marker) state) :
    ProtocolInvariant rootName manifest state :=
  reached.invariant (protocolInvariant_start building present)
    fun _ _ _ invariant honest stepped => protocolInvariant_step invariant honest stepped

/-- In every run that starts with a marker, a call during which no build was in progress from its
marker read to its end returns the projection signature of a fresh scan. -/
theorem producerManifest_fresh {rootName : Text} {manifest : RelPath} {tree : FileTree}
    {building : Bool} {first : SourceSignatureSnapshot} {state : ProtocolState}
    {content snapshot marker : SourceSignatureSnapshot} {cache : SignatureCache}
    {refresh startedIdle : Bool} {observed : List FileTree}
    (present : producerManifestSignatureSnapshot rootName manifest tree = some first)
    (reached : ReachableVia (protocolStep rootName manifest) (ScansHonestly rootName)
      (protocolStart tree building first) state)
    (calm : state.call = .marked refresh startedIdle marker observed true)
    (honest : ScansHonestly rootName state (.answer content))
    (answered : protocolAnswer state content = some (snapshot, cache)) :
    snapshot.projectionSignature =
      (sourceSignatureSnapshot rootName state.tree).projectionSignature := by
  have invariant := protocolInvariant_of_reachable present reached
  rcases (invariant.call _ _ _ _ _ calm).2.2 rfl with ⟨idle, current⟩
  apply answer_fresh invariant honest answered idle current
  rcases invariant.cache with ⟨cached, fallback, kept, _⟩
  rcases protocolAnswer_cases kept answered with
    ⟨_, _, read, _, _, called, ⟨_, matching, _⟩ | ⟨_, paired, _⟩⟩
  · rw [calm] at called
    cases called
    exact matching
  · rw [calm] at called
    cases called
    exact markerMatches_iff.mpr ⟨by rw [paired]; rfl, by rw [paired]; rfl⟩

end Protocol

section Sample

attribute [local instance] Unicode.ascii Hashing.transparent

def markedTree (page marker : Text) : FileTree where
  root := some (.dir ⟨1, 1, 0, 0⟩
    [("a.md", .file ⟨1, 2, 0, page.length⟩ (.text page)),
      ("m.json", .file ⟨1, 3, 0, marker.length⟩ (.text marker))])
  wellFormed := by
    intro node rooted
    rw [← Option.some.inj rooted]
    have names : ∀ name ∈ [("a.md" : Text), ("m.json" : Text)], validName name := by decide
    have sorted : [("a.md" : Text), ("m.json" : Text)].Pairwise (· < ·) := by decide
    refine .dir _ _ names sorted ?_
    intro entry entryIn
    simp only [List.mem_cons, List.not_mem_nil, or_false] at entryIn
    rcases entryIn with rfl | rfl
    · exact .file _ _
    · exact .file _ _
  followed := by
    intro node rooted
    rw [← Option.some.inj rooted]
    rfl

def sampleMarker (marker : Text) : SourceSignatureSnapshot :=
  markerSnapshot ⟨["m.json"], .file, 1, 3, 0, marker.length, 't' :: marker⟩

theorem sampleMarker_present (page marker : Text) :
    producerManifestSignatureSnapshot "wiki" ["m.json"] (markedTree page marker) =
      some (sampleMarker marker) := rfl

/-- A call that read the marker and is about to return what it scanned before any write. -/
def scannedState (building : Bool) (tree : FileTree) (markers : List SourceSignatureSnapshot)
    (undisturbed : Bool) : ProtocolState where
  tree := tree
  building := building
  markers := markers
  cache := .producer none none
  call := .marked false true (sampleMarker "0") [markedTree "old" "0"] undisturbed

theorem scanned_reachable :
    ReachableVia (protocolStep "wiki" ["m.json"]) (ScansHonestly "wiki")
      (protocolStart (markedTree "old" "0") false (sampleMarker "0"))
      (scannedState false (markedTree "old" "0") [sampleMarker "0"] true) :=
  .tail .observe
    (.tail .readMarker (.tail (.begin false) .refl trivial rfl) trivial rfl) trivial rfl

theorem scanned_honest (building : Bool) (tree : FileTree)
    (markers : List SourceSignatureSnapshot) (undisturbed : Bool) :
    ScansHonestly "wiki" (scannedState building tree markers undisturbed)
      (.answer (sourceSignatureSnapshot "wiki" (markedTree "old" "0"))) := by
  intro refresh startedIdle marker observed calm called _
  cases called
  exact ⟨by simp, fun tree same => by rw [same _ List.mem_cons_self]⟩

theorem producerManifest_fresh_scanned :
    (producerManifestSignatureSnapshot "wiki" ["m.json"] (markedTree "old" "0") =
        some (sampleMarker "0")) ∧
      (pairMarker (sampleMarker "0")
          (sourceSignatureSnapshot "wiki" (markedTree "old" "0"))).projectionSignature =
        (sourceSignatureSnapshot "wiki" (markedTree "old" "0")).projectionSignature :=
  ⟨rfl, producerManifest_fresh (sampleMarker_present "old" "0") scanned_reachable rfl
    (scanned_honest _ _ _ _) rfl⟩

/-- A call that meets a whole build between its scan and its end returns the old content. -/
theorem producerManifest_stale :
    ¬ ∀ (state : ProtocolState) (content snapshot marker : SourceSignatureSnapshot)
        (cache : SignatureCache) (refresh undisturbed : Bool) (observed : List FileTree),
      ReachableVia (protocolStep "wiki" ["m.json"]) (ScansHonestly "wiki")
          (protocolStart (markedTree "old" "0") false (sampleMarker "0")) state →
        state.call = .marked refresh true marker observed undisturbed →
        state.building = false →
        ScansHonestly "wiki" state (.answer content) →
        protocolAnswer state content = some (snapshot, cache) →
        snapshot.projectionSignature =
          (sourceSignatureSnapshot "wiki" state.tree).projectionSignature := by
  intro claimed
  have built : ReachableVia (protocolStep "wiki" ["m.json"]) (ScansHonestly "wiki")
      (protocolStart (markedTree "old" "0") false (sampleMarker "0"))
      (scannedState false (markedTree "fresh" "10") [sampleMarker "10", sampleMarker "0"] false) :=
    .tail (.publish (markedTree "fresh" "10"))
      (.tail (.write (markedTree "fresh" "0")) scanned_reachable trivial rfl) trivial rfl
  have same := claimed _ (sourceSignatureSnapshot "wiki" (markedTree "old" "0")) _ _ _ _ _ _ built
    rfl rfl (scanned_honest _ _ _ _) rfl
  exact absurd same (by decide)

end Sample

end LlmWikiServe
