import LlmWikiServe.Models
import LlmWikiServe.Signature

/-!
# Refreshing the served index

One `index()` call checks the source signature, looks the projection store up, loads
and projects the source on a miss, and publishes the result.  Everything the call
learns from outside the service object is an answer of its environment, and every
such answer may be a failure.
-/

namespace LlmWikiServe

/-! ## Signature caches -/

/-- What reading the source tree may answer during one call. -/
structure SourceAnswers (Failure : Type) where
  /-- Whether the recorded paths of a snapshot are all current. -/
  isCurrent : SourceSignatureSnapshot → Except Failure Bool
  /-- A fresh walk over the tree. -/
  rescan : Except Failure SourceSignatureSnapshot
  /-- The state of the producer's marker file, if it is a safe file. -/
  marker : Except Failure (Option SourceSignatureSnapshot)

/-- `_SourceSignatureCache.current_snapshot`: the answer and the snapshot kept. -/
def sourceCacheSnapshot {Failure : Type} (answers : SourceAnswers Failure) (refresh : Bool)
    (cached : Option SourceSignatureSnapshot) :
    Except Failure SourceSignatureSnapshot × Option SourceSignatureSnapshot :=
  let rescan :=
    match answers.rescan with
    | .error failure => (.error failure, cached)
    | .ok snapshot => (.ok snapshot, some snapshot)
  match cached with
  | none => rescan
  | some snapshot =>
      if refresh then rescan
      else
        match answers.isCurrent snapshot with
        | .error failure => (.error failure, cached)
        | .ok true => (.ok snapshot, cached)
        | .ok false => rescan

/-- The signature cache of a service: over the whole source, or behind a producer's marker. -/
inductive SignatureCache where
  | source (cached : Option SourceSignatureSnapshot)
  | producer (cached fallback : Option SourceSignatureSnapshot)

/-- `_ProducerManifestSignatureCache._marker_matches`. -/
def markerMatches (cached : Option SourceSignatureSnapshot) (marker : SourceSignatureSnapshot) :
    Bool :=
  match cached with
  | none => false
  | some snapshot =>
      snapshot.signature = marker.signature &&
        snapshot.freshnessSignature = marker.freshnessSignature

def pairMarker (marker content : SourceSignatureSnapshot) : SourceSignatureSnapshot where
  signature := marker.signature
  projectionSignature := content.projectionSignature
  paths := marker.paths
  freshnessSignature := marker.freshnessSignature

def SignatureCache.currentSnapshot {Failure : Type} (answers : SourceAnswers Failure)
    (refresh : Bool) : SignatureCache → Except Failure SourceSignatureSnapshot × SignatureCache
  | .source cached =>
      let (answer, kept) := sourceCacheSnapshot answers refresh cached
      (answer, .source kept)
  | .producer cached fallback =>
      match answers.marker with
      | .error failure => (.error failure, .producer cached fallback)
      | .ok none =>
          let (answer, kept) := sourceCacheSnapshot answers refresh fallback
          (answer, .producer none kept)
      | .ok (some marker) =>
          match cached with
          | some snapshot =>
              if !refresh && markerMatches (some snapshot) marker then
                (.ok snapshot, .producer cached fallback)
              else
                match answers.rescan with
                | .error failure => (.error failure, .producer cached fallback)
                | .ok content =>
                    (.ok (pairMarker marker content),
                      .producer (some (pairMarker marker content)) fallback)
          | none =>
              match answers.rescan with
              | .error failure => (.error failure, .producer cached fallback)
              | .ok content =>
                  (.ok (pairMarker marker content),
                    .producer (some (pairMarker marker content)) fallback)

/-! ## Service state -/

structure ProjectionKey where
  namespace_ : Text
  sourceId : Text
  projectionSignature : Text
  schemaVersion : Text := "projection-store-v1"
  deriving DecidableEq

structure ProjectionRecord where
  key : ProjectionKey
  index : WikiIndex

structure RetrievalSnapshot where
  index : WikiIndex
  signature : SourceSignature
  projectionSignature : List PathState
  freshnessSignature : List PathState
  projectionSignatureDigest : Text

structure IndexState where
  index : Option WikiIndex
  signature : Option SourceSignature
  projectionSignature : Option (List PathState)
  freshnessSignature : Option (List PathState)
  retrievalSnapshot : Option RetrievalSnapshot
  gitGenerationSeen : Nat
  /-- The clock at the end of the last check, in seconds. -/
  lastRefreshCheck : Option ℚ
  signatureCache : SignatureCache
  /-- The number of fast-forwards the git syncer has made. -/
  gitGeneration : Nat

/-- A service before its first call. -/
def IndexState.initial (signatureCache : SignatureCache) : IndexState where
  index := none
  signature := none
  projectionSignature := none
  freshnessSignature := none
  retrievalSnapshot := none
  gitGenerationSeen := 0
  lastRefreshCheck := none
  signatureCache := signatureCache
  gitGeneration := 0

structure IndexConfig where
  refreshIntervalSeconds : ℚ
  cacheNamespace : Text
  /-- Whether a git syncer is configured. -/
  gitSync : Bool

structure IndexCall (Failure : Type) where
  refresh : Bool
  /-- Fast-forwards the syncer has made since the last call. -/
  fastForwards : Nat
  clockAtCheck : ℚ
  clockAtEnd : ℚ
  source : SourceAnswers Failure
  cacheSourceId : Except Failure Text
  get : ProjectionKey → Except Failure (Option ProjectionRecord)
  /-- Loading and projecting the source. -/
  load : Except Failure WikiIndex
  cacheSourceIdAfterLoad : Except Failure Text
  put : ProjectionRecord → Except Failure Unit

/-- Where a call was when it raised. -/
inductive IndexStage where
  | signature
  | store
  | load
  deriving DecidableEq

/-- How a call ended. -/
inductive IndexResult (Failure : Type) where
  /-- The snapshot of an earlier check that is not due again. -/
  | reused (snapshot : RetrievalSnapshot)
  /-- The published snapshot, found current. -/
  | unchanged (snapshot : RetrievalSnapshot)
  /-- A snapshot published by this call after a store hit or a load. -/
  | rebuilt (snapshot : RetrievalSnapshot)
  | raised (stage : IndexStage) (failure : Failure)

def IndexResult.isRaised {Failure : Type} : IndexResult Failure → Bool
  | .raised _ _ => true
  | _ => false

section Steps

variable [Hashing] {Failure : Type}

omit [Hashing] in
def publishIndexSnapshot (index : WikiIndex) (snapshot : SourceSignatureSnapshot) (digest : Text)
    (state : IndexState) : IndexState :=
  { state with
    index := some index
    signature := some snapshot.signature
    projectionSignature := some snapshot.projectionSignature
    freshnessSignature := some snapshot.freshnessSignature
    retrievalSnapshot := some
      { index
        signature := snapshot.signature
        projectionSignature := snapshot.projectionSignature
        freshnessSignature := snapshot.freshnessSignature
        projectionSignatureDigest := digest } }

omit [Hashing] in
def canReuseCachedIndex (config : IndexConfig) (refresh : Bool) (now : ℚ) (state : IndexState) :
    Bool :=
  if refresh || state.retrievalSnapshot.isNone || config.refreshIntervalSeconds ≤ 0 then false
  else
    match state.lastRefreshCheck with
    | none => false
    | some last => now - last < config.refreshIntervalSeconds

omit [Hashing] in
/-- The scanned signatures are the published ones. -/
def matchesPublished (state : IndexState) (snapshot : SourceSignatureSnapshot) : Bool :=
  state.signature = some snapshot.signature &&
    state.projectionSignature = some snapshot.projectionSignature &&
    state.freshnessSignature = some snapshot.freshnessSignature

omit [Hashing] in
/-- The record to publish, looked up unless refreshing and loaded on a miss. -/
def rebuildRecord (config : IndexConfig) (call : IndexCall Failure) (refresh : Bool)
    (digest : Text) : Except (IndexStage × Failure) ProjectionRecord :=
  match call.cacheSourceId with
  | .error failure => .error (.store, failure)
  | .ok sourceId =>
      let key : ProjectionKey :=
        { namespace_ := config.cacheNamespace, sourceId, projectionSignature := digest }
      match if refresh then .ok none else call.get key with
      | .error failure => .error (.store, failure)
      | .ok (some record) => .ok record
      | .ok none =>
          match call.load with
          | .error failure => .error (.load, failure)
          | .ok index =>
              match call.cacheSourceIdAfterLoad with
              | .error failure => .error (.store, failure)
              | .ok sourceId =>
                  let record : ProjectionRecord :=
                    { key := { key with sourceId }, index }
                  match call.put record with
                  | .error failure => .error (.store, failure)
                  | .ok () => .ok record

omit [Hashing] in
def markChecked (config : IndexConfig) (now : ℚ) (state : IndexState) : IndexState :=
  { state with
    lastRefreshCheck := if config.refreshIntervalSeconds > 0 then some now else none }

def checkSnapshot (config : IndexConfig) (call : IndexCall Failure) (refresh : Bool)
    (snapshot : SourceSignatureSnapshot) (state : IndexState) :
    IndexResult Failure × IndexState :=
  let digest := projectionSignatureDigest snapshot.projectionSignature
  let publish (index : WikiIndex) : RetrievalSnapshot × IndexState :=
    ({ index
       signature := snapshot.signature
       projectionSignature := snapshot.projectionSignature
       freshnessSignature := snapshot.freshnessSignature
       projectionSignatureDigest := digest },
      markChecked config call.clockAtEnd (publishIndexSnapshot index snapshot digest state))
  match state.index, state.retrievalSnapshot with
  | some index, published =>
      if refresh || !matchesPublished state snapshot then
        match rebuildRecord config call refresh digest with
        | .error (stage, failure) => (.raised stage failure, state)
        | .ok record => ((publish record.index).map IndexResult.rebuilt id)
      else
        match published with
        | none => ((publish index).map IndexResult.unchanged id)
        | some current => (.unchanged current, markChecked config call.clockAtEnd state)
  | none, _ =>
      match rebuildRecord config call refresh digest with
      | .error (stage, failure) => (.raised stage failure, state)
      | .ok record => ((publish record.index).map IndexResult.rebuilt id)

def indexSnapshotUnlocked (config : IndexConfig) (call : IndexCall Failure) (refresh : Bool)
    (state : IndexState) : IndexResult Failure × IndexState :=
  match state.retrievalSnapshot, canReuseCachedIndex config refresh call.clockAtCheck state with
  | some snapshot, true => (.reused snapshot, state)
  | _, _ =>
      let (answer, signatureCache) :=
        state.signatureCache.currentSnapshot call.source refresh
      let scanned := { state with signatureCache }
      match answer with
      | .error failure => (.raised .signature failure, scanned)
      | .ok snapshot => checkSnapshot config call refresh snapshot scanned

omit [Hashing] in
/-- The syncer's generation a call reads, zero without a syncer. -/
def readGeneration (config : IndexConfig) (state : IndexState) : Nat :=
  if config.gitSync then state.gitGeneration else 0

omit [Hashing] in
/-- The state a call finds, with what the syncer has done since the last one. -/
def IndexState.arrive (call : IndexCall Failure) (before : IndexState) : IndexState :=
  { before with gitGeneration := before.gitGeneration + call.fastForwards }

omit [Hashing] in
def gitMoved (config : IndexConfig) (state : IndexState) : Bool :=
  readGeneration config state ≠ state.gitGenerationSeen

/-- One `index()` call. -/
def indexSnapshot (config : IndexConfig) (call : IndexCall Failure) (before : IndexState) :
    IndexResult Failure × IndexState :=
  let state := before.arrive call
  match indexSnapshotUnlocked config call (call.refresh || gitMoved config state) state with
  | (.raised stage failure, after) => (.raised stage failure, after)
  | (result, after) =>
      (result, { after with gitGenerationSeen := readGeneration config state })

end Steps

end LlmWikiServe
