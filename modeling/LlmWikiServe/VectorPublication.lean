import LlmWikiServe.RecordRoundTrip
import LlmWikiServe.VectorCache

/-!
# Publication in the vector cache

Whatever an interleaving of publishers, readers and crashes does, a reader gets the records and
the matrix of one publication of its identity, or nothing.  Sidecars are named by their digests and
put in place before the manifest that names them.
-/

namespace LlmWikiServe.VectorCache

open Transition ManagedContext

/-! ## Payloads that are read again -/

section Payloads

theorem get?_sortKeys {members : List (Text × Payload)} (distinct : (Json.object members).Distinct)
    {name : Text} {value : Payload} (among : (name, value) ∈ members) :
    ∃ sorted, (Json.object members).sortKeys = .object sorted ∧
      Keyed.get? sorted name = some value.sortKeys := by
  simp only [Json.Distinct] at distinct
  refine ⟨_, rfl, ?_⟩
  have order := List.perm_insertionSort (@Json.nameLe PyFloat) (Json.sortMembers members)
  have names : ((Json.sortMembers members).map Prod.fst).Nodup := by
    rw [Json.map_fst_sortMembers]
    exact distinct.1
  rw [← Keyed.get?_of_perm order.symm names, Json.get?_sortMembers,
    Keyed.get?_of_mem distinct.1 among, Option.map_some]

theorem get_sortKeys {members : List (Text × Payload)} (distinct : (Json.object members).Distinct)
    {name : Text} {value : Payload} (among : (name, value) ∈ members) :
    (Json.object members).sortKeys.get name = value.sortKeys := by
  obtain ⟨sorted, shape, found⟩ := get?_sortKeys distinct among
  rw [shape, Json.get, found, Option.getD_some]

theorem distinct_object {members : List (Text × Payload)}
    (names : (members.map Prod.fst).Nodup)
    (values : ∀ member ∈ members, member.2.Distinct) : (Json.object members).Distinct := by
  simp only [Json.Distinct]
  refine ⟨names, Json.distinctMembers_iff.mpr fun (name, value) among => ?_⟩
  simpa only [Json.DistinctMember] using values (name, value) among

theorem members_distinct (identity : VectorIdentity) :
    (Json.object identity.members).Distinct := by
  apply distinct_object
  · simp only [VectorIdentity.members, List.map_cons, List.map_nil]
    decide
  · simp [VectorIdentity.members, Json.Distinct]

theorem identity_of_equalsDict {written expected : VectorIdentity}
    (equal : equalsDict (Json.object written.members).sortKeys expected.members = true) :
    written = expected := by
  have field : ∀ name value, (name, value) ∈ expected.members →
      equalsScalar ((Json.object written.members).sortKeys.get name) value = true := by
    intro name value among
    simp only [equalsDict, Json.sortKeys, Bool.and_eq_true, List.all_eq_true] at equal
    exact equal.2 (name, value) among
  have text : ∀ name first second, (name, Json.string first) ∈ written.members →
      (name, Json.string second) ∈ expected.members → first = second := by
    intro name first second inWritten inExpected
    have equals := field name _ inExpected
    rw [get_sortKeys (members_distinct written) inWritten] at equals
    simpa [Json.sortKeys, equalsScalar, equalsText] using equals
  have dimension : written.dimension = expected.dimension := by
    have inWritten : (("dimension" : Text), Json.int written.dimension) ∈ written.members := by
      simp [VectorIdentity.members]
    have equals := field "dimension" (.int expected.dimension) (by simp [VectorIdentity.members])
    rw [get_sortKeys (members_distinct written) inWritten] at equals
    simpa [Json.sortKeys, equalsScalar, equalsInt] using equals
  have scope := text "source_scope" written.sourceScope expected.sourceScope
    (by simp [VectorIdentity.members]) (by simp [VectorIdentity.members])
  have root := text "root_fingerprint" written.rootFingerprint expected.rootFingerprint
    (by simp [VectorIdentity.members]) (by simp [VectorIdentity.members])
  have projection := text "projection_signature" written.projectionSignature
    expected.projectionSignature (by simp [VectorIdentity.members])
    (by simp [VectorIdentity.members])
  have content := text "content_hash" written.contentHash expected.contentHash
    (by simp [VectorIdentity.members]) (by simp [VectorIdentity.members])
  have provider := text "provider_id" written.providerId expected.providerId
    (by simp [VectorIdentity.members]) (by simp [VectorIdentity.members])
  have artifact := text "provider_artifact_fingerprint" written.providerArtifactFingerprint
    expected.providerArtifactFingerprint (by simp [VectorIdentity.members])
    (by simp [VectorIdentity.members])
  have model := text "model_id" written.modelId expected.modelId
    (by simp [VectorIdentity.members]) (by simp [VectorIdentity.members])
  have revision := text "model_revision" written.modelRevision expected.modelRevision
    (by simp [VectorIdentity.members]) (by simp [VectorIdentity.members])
  have metric := text "distance_metric" written.distanceMetric expected.distanceMetric
    (by simp [VectorIdentity.members]) (by simp [VectorIdentity.members])
  have visibility := text "visibility_scope" written.visibilityScope expected.visibilityScope
    (by simp [VectorIdentity.members]) (by simp [VectorIdentity.members])
  cases written
  cases expected
  simp_all

variable {Npy : Type} [Sha256 Npy] [Json.FloatRepr PyFloat]

variable (Npy) in
theorem vectorsRef_distinct (index : VectorIndex) (checksum : Text) :
    (vectorsRef Npy index checksum).Distinct := by
  apply distinct_object
  · simp only [sidecarIdentityFields, vectorsFields, List.cons_append, List.nil_append,
      List.map_cons, List.map_nil]
    decide
  · simp [sidecarIdentityFields, vectorsFields, Json.Distinct, Json.DistinctItems]

variable (Npy) in
theorem metadataRef_distinct (index : VectorIndex) : (metadataRef Npy index).Distinct := by
  apply distinct_object
  · simp only [sidecarIdentityFields, metadataFields, List.cons_append, List.nil_append,
      List.map_cons, List.map_nil]
    decide
  · simp [sidecarIdentityFields, metadataFields, Json.Distinct]

variable (Npy) in
/-- The member of a manifest that holds the two sidecars. -/
def sidecarMembers (index : VectorIndex) (checksum : Text) : List (Text × Payload) :=
  [("vectors", vectorsRef Npy index checksum), ("metadata", metadataRef Npy index)]

theorem sidecarMembers_distinct (index : VectorIndex) (checksum : Text) :
    (Json.object (sidecarMembers Npy index checksum)).Distinct := by
  apply distinct_object
  · simp only [sidecarMembers, List.map_cons, List.map_nil]
    decide
  · simp [sidecarMembers, vectorsRef_distinct, metadataRef_distinct]

theorem manifestPayload_distinct (publication : Publication) (checksum : Text)
    (createdAt : Int) : (manifestPayload Npy publication checksum createdAt).Distinct := by
  have identity := members_distinct publication.index.identity
  have sidecars := @sidecarMembers_distinct Npy _ _ publication.index checksum
  apply distinct_object
  · simp only [List.map_cons, List.map_nil]
    decide
  · simp only [List.forall_mem_cons]
    refine ⟨?_, identity, ?_, sidecars, ?_, ?_, ?_, ?_, ?_, ?_, by simp⟩ <;>
      simp [Json.Distinct, Json.DistinctItems]

theorem sidecarManifestRef_manifest {publication : Publication} {checksum : Text}
    {createdAt : Int} {name : Text} {fields : List (Text × Payload)} {file digest : Text}
    {found : SidecarRef}
    (isMember : (name, Json.object fields) ∈ sidecarMembers Npy publication.index checksum)
    (distinct : (Json.object fields).Distinct) 
    (hasFile : (("file" : Text), Json.string file) ∈ fields)
    (hasDigest : (("sha256" : Text), Json.string digest) ∈ fields)
    (isFound : sidecarManifestRef (manifestPayload Npy publication checksum createdAt).sortKeys
      name = some found) :
    found.file = file := by
  have sidecars : (manifestPayload Npy publication checksum createdAt).sortKeys.get "sidecars" =
      (Json.object (sidecarMembers Npy publication.index checksum)).sortKeys :=
    get_sortKeys (manifestPayload_distinct publication checksum createdAt)
      (by simp [sidecarMembers])
  have ref := get_sortKeys (sidecarMembers_distinct publication.index checksum) isMember
  simp only [sidecarManifestRef, sidecars] at isFound
  rw [ref, get_sortKeys distinct hasFile, get_sortKeys distinct hasDigest] at isFound
  simp only [Json.sortKeys] at isFound
  split at isFound
  · obtain rfl := Option.some.inj isFound
    rfl
  · cases isFound

theorem vectors_file {publication : Publication} {checksum : Text} {createdAt : Int}
    {vectors : SidecarRef}
    (isFound : sidecarManifestRef (manifestPayload Npy publication checksum createdAt).sortKeys
      "vectors" = some vectors) :
    vectors.file = sidecarContentPath "vectors" checksum ".npy" := by
  let fields := sidecarIdentityFields Npy publication.index.identity ++
    vectorsFields publication.index checksum
  have isMember : (("vectors" : Text), Json.object fields) ∈
      sidecarMembers Npy publication.index checksum := by
    simp [sidecarMembers, vectorsRef, fields]
  have hasFile : (("file" : Text), Json.string (sidecarContentPath "vectors" checksum ".npy")) ∈
      fields := by
    simp [vectorsFields, fields]
  have hasDigest : (("sha256" : Text), Json.string checksum) ∈ fields := by
    simp [vectorsFields, fields]
  exact sidecarManifestRef_manifest isMember (vectorsRef_distinct Npy publication.index checksum)
    hasFile hasDigest isFound

theorem metadata_file {publication : Publication} {checksum : Text} {createdAt : Int}
    {metadata : SidecarRef}
    (isFound : sidecarManifestRef (manifestPayload Npy publication checksum createdAt).sortKeys
      "metadata" = some metadata) :
    metadata.file = metadataPath (metadataContents Npy publication.index) := by
  let fields := sidecarIdentityFields Npy publication.index.identity ++
    metadataFields Npy publication.index
  have isMember : (("metadata" : Text), Json.object fields) ∈
      sidecarMembers Npy publication.index checksum := by
    simp [sidecarMembers, metadataRef, fields]
  have hasFile : (("file" : Text), Json.string (metadataPath
      (metadataContents Npy publication.index))) ∈ fields := by
    simp [metadataFields, fields]
  have hasDigest : (("sha256" : Text), Json.string (Sha256.sha256
      (metadataContents Npy publication.index))) ∈ fields := by
    simp [metadataFields, fields]
  exact sidecarManifestRef_manifest isMember (metadataRef_distinct Npy publication.index)
    hasFile hasDigest isFound

theorem manifestRefs_manifest {publication : Publication} {checksum : Text} {createdAt : Int}
    {identity : VectorIdentity} {dimension : Nat} {vectors metadata : SidecarRef}
    (found : manifestRefs Npy (manifestPayload Npy publication checksum createdAt).sortKeys
      identity dimension = some (vectors, metadata)) :
    publication.index.identity = identity ∧
      vectors.file = sidecarContentPath "vectors" checksum ".npy" ∧
      metadata.file = metadataPath (metadataContents Npy publication.index) := by
  have written : (manifestPayload Npy publication checksum createdAt).sortKeys.get "identity" =
      (Json.object publication.index.identity.members).sortKeys :=
    get_sortKeys (manifestPayload_distinct publication checksum createdAt) (by simp)
  unfold manifestRefs at found
  rw [written] at found
  split at found
  · cases found
  next same =>
    split at found
    · cases found
    split at found
    · cases found
    split at found
    · cases found
    split at found
    next vectorsFound metadataFound =>
      split at found
      · cases found
      split at found
      · cases found
      split at found
      · cases found
      split at found
      · cases found
      split at found
      · cases found
      obtain ⟨rfl, rfl⟩ := Prod.mk.inj (Option.some.inj found)
      refine ⟨identity_of_equalsDict (by simpa using same), ?_, ?_⟩
      · exact vectors_file vectorsFound
      · exact metadata_file metadataFound
    · cases found

omit [Json.FloatRepr PyFloat] in
theorem chunkPayload_distinct (record : VectorChunkRecord) : (chunkPayload record).Distinct := by
  apply distinct_object
  · simp only [chunkMembers, List.map_cons, List.map_nil]
    decide
  · simp [chunkMembers, Json.Distinct]

variable (Npy) in
theorem metadataPayload_distinct (index : VectorIndex) :
    (vectorIndexMetadataPayload Npy index).Distinct := by
  have chunks : Json.DistinctItems (index.records.map chunkPayload) := by
    generalize index.records = records
    induction records with
    | nil => trivial
    | cons record records inductionHypothesis =>
        exact ⟨chunkPayload_distinct record, inductionHypothesis⟩
  apply distinct_object
  · simp only [List.map_cons, List.map_nil]
    decide
  · simp [Json.Distinct, chunks]

theorem metadataChunks_metadata {index : VectorIndex} {identity : VectorIdentity}
    {dimension : Nat} {chunks : List Payload}
    (found : metadataChunks Npy (vectorIndexMetadataPayload Npy index).sortKeys identity dimension =
      some chunks) :
    index.dimension = dimension ∧
      chunks = index.records.map fun record => (chunkPayload record).sortKeys := by
  have distinct := metadataPayload_distinct Npy index
  have chunksRead : (vectorIndexMetadataPayload Npy index).sortKeys.get "chunks" =
      (Json.array (index.records.map chunkPayload)).sortKeys :=
    get_sortKeys distinct (by simp)
  have dimensionRead : (vectorIndexMetadataPayload Npy index).sortKeys.get "dimension" =
      (Json.int index.dimension).sortKeys :=
    get_sortKeys distinct (by simp)
  unfold metadataChunks at found
  rw [chunksRead, dimensionRead] at found
  simp only [Json.sortKeys] at found
  cases same : equalsInt (.int index.dimension) dimension with
  | false => simp only [same, Bool.not_false, if_true, ite_self, reduceCtorEq] at found
  | true =>
      simp only [same, Bool.not_true, Bool.false_eq_true, if_false] at found
      split_ifs at found
      obtain rfl := Option.some.inj found
      refine ⟨by simpa [equalsInt] using same, ?_⟩
      generalize index.records = records
      induction records with
      | nil => rfl
      | cons record records inductionHypothesis =>
          simp only [List.map_cons, Json.sortItems, inductionHypothesis]

end Payloads

/-! ## Indexes that are read again -/

section Together

variable {Npy : Type} [Numpy Npy]

variable (Npy) in
/-- A record as it is read again, with the norm of its row. -/
def rereadRecord (record : VectorChunkRecord) : VectorChunkRecord :=
  { record with
    vector := []
    norm := Numpy.norm Npy (record.vector.map (Numpy.toFloat32 Npy)) }

variable (Npy) in
structure Together (request : ReadRequest) (publication : Publication) (answer : VectorIndex) :
    Prop where
  asked : publication.index.identity = request.identity
  answered : answer.identity = request.identity
  records : answer.records = publication.index.records.map (rereadRecord Npy)
  matrix : answer.vectorMatrix = some (float32Rows Npy publication.index)

variable [Rendering] [Numbers]

omit [Numpy Npy] in
theorem recordOfChunk_chunk {record read : VectorChunkRecord} {norm : PyFloat}
    (found : recordOfChunk (chunkPayload record).sortKeys norm = some read) :
    read = { record with vector := [], norm } := by
  have distinct := chunkPayload_distinct record
  have field : ∀ {name value}, (name, value) ∈ chunkMembers record →
      Keyed.get? ((Json.sortMembers (chunkMembers record)).insertionSort Json.nameLe) name =
        some value.sortKeys := by
    intro name value among
    obtain ⟨sorted, shape, isRead⟩ := get?_sortKeys distinct among
    simp only [Json.sortKeys] at shape
    rw [Json.object.inj shape]
    exact isRead
  have text : ∀ name text, (name, Json.string text) ∈ chunkMembers record →
      (Keyed.get? ((Json.sortMembers (chunkMembers record)).insertionSort Json.nameLe) name).map
        strOf = some text := by
    intro name text among
    rw [field among]
    rfl
  have number : ∀ name number, (name, Json.int number) ∈ chunkMembers record →
      (Keyed.get? ((Json.sortMembers (chunkMembers record)).insertionSort Json.nameLe) name).bind
        intOf = some number := by
    intro name number among
    rw [field among]
    rfl
  simp only [chunkPayload, Json.sortKeys, recordOfChunk] at found
  split at found
  · cases found
  · rw [text "page_id" record.pageId (by simp [chunkMembers]),
      text "chunk_id" record.chunkId (by simp [chunkMembers]),
      number "ordinal" record.ordinal (by simp [chunkMembers]),
      number "start" record.start (by simp [chunkMembers]),
      number "end" record.end_ (by simp [chunkMembers]),
      text "heading_hash" record.headingHash (by simp [chunkMembers]),
      text "page_content_hash" record.pageContentHash (by simp [chunkMembers])] at found
    simp only [Option.bind_eq_bind, Option.bind_some] at found
    split_ifs at found
    exact (Option.some.inj found).symm

omit [Numpy Npy] in
theorem mapM_recordOfChunk {norm : VectorChunkRecord → PyFloat}
    {records read : List VectorChunkRecord}
    (found : ((records.map fun record => ((chunkPayload record).sortKeys, norm record)).mapM
      fun (raw, norm) => recordOfChunk raw norm) = some read) :
    read = records.map fun record => { record with vector := [], norm := norm record } := by
  induction records generalizing read with
  | nil =>
      obtain rfl := Option.some.inj found
      rfl
  | cons record records inductionHypothesis =>
      simp only [List.map_cons, List.mapM_cons, Option.bind_eq_bind, Option.bind_eq_some_iff,
        Option.pure_def] at found
      obtain ⟨first, isFirst, rest, isRest, same⟩ := found
      obtain rfl := Option.some.inj same
      rw [recordOfChunk_chunk isFirst, inductionHypothesis isRest]
      rfl

omit [Rendering] [Numbers] in
theorem loadVectorMatrix_matrix {index : VectorIndex} (rectangular : isRectangular index = true)
    {vectors : SidecarRef} {rows columns : Nat} {loaded : List (List PyFloat)}
    (found : loadVectorMatrix (some (matrixContents Npy index)) vectors rows columns =
      some loaded) :
    loaded = float32Rows Npy index := by
  have widths : ∀ row ∈ float32Rows Npy index, row.length = index.dimension := by
    intro row among
    obtain ⟨record, recordIn, rfl⟩ := List.mem_map.mp among
    simpa using List.all_eq_true.mp rectangular record recordIn
  unfold loadVectorMatrix at found
  split_ifs at found
  simp only [matrixContents, Numpy.load_save index.dimension _ widths, Option.bind_some] at found
  split_ifs at found
  exact (Option.some.inj found).symm

omit [Rendering] [Numbers] in
theorem loadVectorMatrix_none (vectors : SidecarRef) (rows columns : Nat) :
    loadVectorMatrix (none : Option (Contents Npy)) vectors rows columns = none := by
  unfold loadVectorMatrix
  split
  · rfl
  · split <;> rfl

/-- Without the file of the matrix there is no index. -/
theorem vectorIndexFromChunks_none (vectors : SidecarRef) (chunks : List Payload)
    (identity : VectorIdentity) (dimension : Nat) :
    vectorIndexFromChunks (none : Option (Contents Npy)) vectors chunks identity dimension =
      none := by
  unfold vectorIndexFromChunks
  rw [loadVectorMatrix_none]
  rfl

theorem vectorIndexFromChunks_together {index answer : VectorIndex}
    (rectangular : isRectangular index = true) {vectors : SidecarRef} {identity : VectorIdentity}
    {dimension : Nat}
    (found : vectorIndexFromChunks (some (matrixContents Npy index)) vectors
      (index.records.map fun record => (chunkPayload record).sortKeys) identity dimension =
        some answer) :
    answer.identity = identity ∧ answer.records = index.records.map (rereadRecord Npy) ∧
      answer.vectorMatrix = some (float32Rows Npy index) := by
  unfold vectorIndexFromChunks at found
  simp only [Option.bind_eq_bind, Option.bind_eq_some_iff] at found
  obtain ⟨matrix, isMatrix, norms, areNorms, found⟩ := found
  obtain rfl := loadVectorMatrix_matrix rectangular isMatrix
  unfold vectorNormsForMatrix at areNorms
  simp only at areNorms
  split_ifs at areNorms
  obtain rfl := Option.some.inj areNorms
  split_ifs at found
  obtain ⟨records, areRecords, answered⟩ := Option.bind_eq_some_iff.mp found
  obtain rfl := Option.some.inj answered
  refine ⟨rfl, ?_, rfl⟩
  rw [float32Rows, List.map_map, List.zip_map'] at areRecords
  exact mapM_recordOfChunk areRecords

end Together

/-! ## The files of a record directory -/

section Directory

/-- A temporary file. -/
def Hidden (name : Text) : Prop := name.head? = some '.'

theorem hidden_matrixTmp (pid timeNs : Int) : Hidden (matrixTmp pid timeNs) := rfl

theorem hidden_bytesTmp (file : Text) (pid timeNs : Int) : Hidden (bytesTmp file pid timeNs) := rfl

/-- The name of a sidecar determines the start of its digest. -/
theorem sidecarContentPath_take {kind suffix first second : Text}
    (same : sidecarContentPath kind first suffix = sidecarContentPath kind second suffix) :
    first.take 16 = second.take 16 := by
  simpa [sidecarContentPath] using same

variable {Npy : Type} [Sha256 Npy] [Numpy Npy] [Json.FloatRepr PyFloat]

omit [Numpy Npy] [Json.FloatRepr PyFloat] in
theorem head?_vectorPath (contents : Contents Npy) : (vectorPath contents).head? = some 'v' := rfl

omit [Numpy Npy] [Json.FloatRepr PyFloat] in
theorem head?_metadataPath (contents : Contents Npy) :
    (metadataPath contents).head? = some 'c' := rfl

omit [Json.FloatRepr PyFloat] in
theorem not_hidden_manifestFile : ¬ Hidden manifestFile := by
  rw [Hidden]
  decide

omit [Numpy Npy] [Json.FloatRepr PyFloat] in
theorem not_hidden_vectorPath (contents : Contents Npy) : ¬ Hidden (vectorPath contents) := by
  rw [Hidden, head?_vectorPath]
  decide

omit [Numpy Npy] [Json.FloatRepr PyFloat] in
theorem not_hidden_metadataPath (contents : Contents Npy) : ¬ Hidden (metadataPath contents) := by
  rw [Hidden, head?_metadataPath]
  decide

omit [Numpy Npy] [Json.FloatRepr PyFloat] in
theorem vectorPath_ne_manifestFile (contents : Contents Npy) :
    vectorPath contents ≠ manifestFile := by
  intro same
  have heads := congrArg List.head? same
  rw [head?_vectorPath] at heads
  exact absurd heads (by decide)

omit [Numpy Npy] [Json.FloatRepr PyFloat] in
theorem metadataPath_ne_manifestFile (contents : Contents Npy) :
    metadataPath contents ≠ manifestFile := by
  intro same
  have heads := congrArg List.head? same
  rw [head?_metadataPath] at heads
  exact absurd heads (by decide)

omit [Numpy Npy] [Json.FloatRepr PyFloat] in
theorem vectorPath_ne_metadataPath (first second : Contents Npy) :
    vectorPath first ≠ metadataPath second := by
  intro same
  have heads := congrArg List.head? same
  rw [head?_vectorPath, head?_metadataPath] at heads
  exact absurd heads (by decide)

/-- The contents that are hashed for an index are among the ones that do not collide. -/
structure InCorpus (corpus : Set (Contents Npy)) (index : VectorIndex) : Prop where
  matrix : matrixContents Npy index ∈ corpus
  metadata : metadataContents Npy index ∈ corpus

/-- No two different contents have digests that start alike. -/
def CollisionFree (corpus : Set (Contents Npy)) : Prop :=
  Set.InjOn (fun contents => (Sha256.sha256 contents).take 16) corpus

variable (corpus : Set (Contents Npy))

/-- A file that was put in place. -/
def Placed (published : List Publication) (name : Text) (contents : Contents Npy) : Prop :=
  (name = manifestFile ∧ ∃ publication ∈ published, ∃ createdAt,
    contents = manifestContents publication
      (Sha256.sha256 (matrixContents Npy publication.index)) createdAt) ∨
  (contents ∈ corpus ∧ name = vectorPath contents) ∨
  (contents ∈ corpus ∧ name = metadataPath contents)

def FilesOk (published : List Publication) (files : Text → Option (Contents Npy)) : Prop :=
  ∀ name contents, files name = some contents → Hidden name ∨ Placed corpus published name contents

variable {corpus} {published : List Publication} {files : Text → Option (Contents Npy)}

theorem Placed.mono {name : Text} {contents : Contents Npy}
    (placed : Placed corpus published name contents) (further : List Publication) :
    Placed corpus (published ++ further) name contents := by
  rcases placed with ⟨isManifest, publication, among, stamped⟩ | sidecar
  · exact Or.inl ⟨isManifest, publication, List.mem_append_left _ among, stamped⟩
  · exact Or.inr sidecar

theorem FilesOk.mono (ok : FilesOk corpus published files) (further : List Publication) :
    FilesOk corpus (published ++ further) files :=
  fun name contents found => (ok name contents found).imp_right (·.mono further)

/-- Whatever happens to a temporary file. -/
theorem FilesOk.temporary (ok : FilesOk corpus published files) {tmp : Text}
    (hidden : Hidden tmp) (contents : Option (Contents Npy)) :
    FilesOk corpus published (Function.update files tmp contents) := by
  intro name stored found
  by_cases same : name = tmp
  · exact Or.inl (same ▸ hidden)
  · rw [Function.update_of_ne same] at found
    exact ok name stored found

theorem FilesOk.place (ok : FilesOk corpus published files) {name : Text} {contents : Contents Npy}
    (placed : Placed corpus published name contents) :
    FilesOk corpus published (Function.update files name (some contents)) := by
  intro other stored found
  by_cases same : other = name
  · subst same
    rw [Function.update_self] at found
    obtain rfl := Option.some.inj found
    exact Or.inr placed
  · rw [Function.update_of_ne same] at found
    exact ok other stored found

theorem FilesOk.manifest (ok : FilesOk corpus published files) {contents : Contents Npy}
    (found : files manifestFile = some contents) :
    ∃ publication ∈ published, ∃ createdAt, contents = manifestContents publication
      (Sha256.sha256 (matrixContents Npy publication.index)) createdAt := by
  rcases ok _ _ found with hidden | ⟨-, stamped⟩ | ⟨-, same⟩ | ⟨-, same⟩
  · exact absurd hidden not_hidden_manifestFile
  · exact stamped
  · exact absurd same.symm (vectorPath_ne_manifestFile contents)
  · exact absurd same.symm (metadataPath_ne_manifestFile contents)

theorem FilesOk.matrix (ok : FilesOk corpus published files) (collisionFree : CollisionFree corpus)
    {index : VectorIndex} (known : InCorpus corpus index) {contents : Contents Npy}
    (found : files (vectorPath (matrixContents Npy index)) = some contents) :
    contents = matrixContents Npy index := by
  rcases ok _ _ found with hidden | ⟨same, -⟩ | ⟨isKnown, same⟩ | ⟨-, same⟩
  · exact absurd hidden (not_hidden_vectorPath _)
  · exact absurd same (vectorPath_ne_manifestFile _)
  · exact collisionFree isKnown known.matrix (sidecarContentPath_take same).symm
  · exact absurd same (vectorPath_ne_metadataPath _ _)

theorem FilesOk.metadata (ok : FilesOk corpus published files)
    (collisionFree : CollisionFree corpus) {index : VectorIndex} (known : InCorpus corpus index)
    {contents : Contents Npy}
    (found : files (metadataPath (metadataContents Npy index)) = some contents) :
    contents = metadataContents Npy index := by
  rcases ok _ _ found with hidden | ⟨same, -⟩ | ⟨-, same⟩ | ⟨isKnown, same⟩
  · exact absurd hidden (not_hidden_metadataPath _)
  · exact absurd same (metadataPath_ne_manifestFile _)
  · exact absurd same.symm (vectorPath_ne_metadataPath _ _)
  · exact collisionFree isKnown known.metadata (sidecarContentPath_take same).symm

end Directory

/-! ## The parties -/

/-- The temporary file a publisher is using. -/
def PublisherPhase.tmp? : PublisherPhase → Option Text
  | .savingMatrix _ tmp => some tmp
  | .savedMatrix _ tmp => some tmp
  | .summed _ tmp _ => some tmp
  | .renamedMatrix _ tmp _ => some tmp
  | .savingMetadata _ _ tmp => some tmp
  | .savedMetadata _ _ tmp => some tmp
  | .savingManifest _ _ _ tmp => some tmp
  | .savedManifest _ _ _ tmp => some tmp
  | _ => none

/-- No two publishers use a temporary file of one name. -/
def TmpsApart (publishers : Nat → PublisherPhase) : Prop :=
  ∀ first second tmp, (publishers first).tmp? = some tmp → (publishers second).tmp? = some tmp →
    first = second

section Parties

variable {Npy : Type} [Sha256 Npy] [Numpy Npy] [Json.FloatRepr PyFloat]

def HashesIn (corpus : Set (Contents Npy)) (event : CacheEvent Npy) : Prop :=
  ∀ publisher publication, event = .publish publisher publication →
    InCorpus corpus publication.index

/-- Publishers have temporary files of their own. -/
def Permitted [Rendering] [Numbers] (corpus : Set (Contents Npy)) (state : CacheState Npy)
    (event : CacheEvent Npy) : Prop :=
  HashesIn corpus event ∧ ∀ after, cacheStep state event = some after → TmpsApart after.publishers

variable (corpus : Set (Contents Npy))

/-- The index is known and its matrix can be saved. -/
def Savable (index : VectorIndex) : Prop := InCorpus corpus index ∧ isRectangular index = true

variable (Npy) in
omit [Json.FloatRepr PyFloat] in
def Summed (index : VectorIndex) (checksum : Text) : Prop :=
  checksum = Sha256.sha256 (matrixContents Npy index)

def PublisherOk (files : Text → Option (Contents Npy)) : PublisherPhase → Prop
  | .idle => True
  | .started publication => InCorpus corpus publication.index
  | .savingMatrix publication tmp => Savable corpus publication.index ∧ Hidden tmp
  | .savedMatrix publication tmp =>
      Savable corpus publication.index ∧ Hidden tmp ∧
        files tmp = some (matrixContents Npy publication.index)
  | .summed publication tmp checksum =>
      Savable corpus publication.index ∧ Hidden tmp ∧
        files tmp = some (matrixContents Npy publication.index) ∧
        Summed Npy publication.index checksum
  | .renamedMatrix publication tmp checksum =>
      Savable corpus publication.index ∧ Hidden tmp ∧ Summed Npy publication.index checksum
  | .matrixDone publication checksum =>
      Savable corpus publication.index ∧ Summed Npy publication.index checksum
  | .savingMetadata publication checksum tmp =>
      Savable corpus publication.index ∧ Summed Npy publication.index checksum ∧ Hidden tmp
  | .savedMetadata publication checksum tmp =>
      Savable corpus publication.index ∧ Summed Npy publication.index checksum ∧ Hidden tmp ∧
        files tmp = some (metadataContents Npy publication.index)
  | .metadataDone publication checksum =>
      Savable corpus publication.index ∧ Summed Npy publication.index checksum
  | .savingManifest publication checksum _ tmp =>
      Savable corpus publication.index ∧ Summed Npy publication.index checksum ∧ Hidden tmp
  | .savedManifest publication checksum createdAt tmp =>
      Savable corpus publication.index ∧ Summed Npy publication.index checksum ∧ Hidden tmp ∧
        files tmp = some (manifestContents publication checksum createdAt)

variable (Npy) in
def ReaderOk (published : List Publication) : ReaderPhase → Prop
  | .idle => True
  | .started _ => True
  | .hashing request vectors metadata =>
      ∃ publication ∈ published, publication.index.identity = request.identity ∧
        vectors.file = vectorPath (matrixContents Npy publication.index) ∧
        metadata.file = metadataPath (metadataContents Npy publication.index)
  | .checked request vectors metadata =>
      ∃ publication ∈ published, publication.index.identity = request.identity ∧
        vectors.file = vectorPath (matrixContents Npy publication.index) ∧
        metadata.file = metadataPath (metadataContents Npy publication.index)
  | .loading request vectors chunks =>
      ∃ publication ∈ published, publication.index.identity = request.identity ∧
        vectors.file = vectorPath (matrixContents Npy publication.index) ∧
        chunks = publication.index.records.map fun record => (chunkPayload record).sortKeys

structure Intact (files : Text → Option (Contents Npy)) (publishers : Nat → PublisherPhase)
    (readers : Nat → ReaderPhase) (published : List Publication)
    (answers : List (ReadRequest × Option VectorIndex)) : Prop where
  filesOk : FilesOk corpus published files
  publishersOk : ∀ publisher, PublisherOk corpus files (publishers publisher)
  apart : TmpsApart publishers
  readersOk : ∀ reader, ReaderOk Npy published (readers reader)
  savable : ∀ publication ∈ published, Savable corpus publication.index
  together : ∀ request answer, (request, some answer) ∈ answers →
    ∃ publication ∈ published, Together Npy request publication answer

variable {corpus} {files changed : Text → Option (Contents Npy)}
  {publishers : Nat → PublisherPhase} {readers : Nat → ReaderPhase}
  {published : List Publication} {answers : List (ReadRequest × Option VectorIndex)}

theorem PublisherPhase.tmp?_hidden {phase : PublisherPhase} (ok : PublisherOk corpus files phase)
    {tmp : Text} (uses : phase.tmp? = some tmp) : Hidden tmp := by
  cases phase with
  | idle => cases uses
  | started => cases uses
  | savingMatrix => exact Option.some.inj uses ▸ ok.2
  | savedMatrix => exact Option.some.inj uses ▸ ok.2.1
  | summed => exact Option.some.inj uses ▸ ok.2.1
  | renamedMatrix => exact Option.some.inj uses ▸ ok.2.1
  | matrixDone => cases uses
  | savingMetadata => exact Option.some.inj uses ▸ ok.2.2
  | savedMetadata => exact Option.some.inj uses ▸ ok.2.2.1
  | metadataDone => cases uses
  | savingManifest => exact Option.some.inj uses ▸ ok.2.2
  | savedManifest => exact Option.some.inj uses ▸ ok.2.2.1

/-- A publisher does not notice a change of files it is not using. -/
theorem PublisherOk.frame {phase : PublisherPhase} (ok : PublisherOk corpus files phase)
    (same : ∀ tmp, phase.tmp? = some tmp → changed tmp = files tmp) :
    PublisherOk corpus changed phase := by
  cases phase with
  | savedMatrix => exact ⟨ok.1, ok.2.1, (same _ rfl).trans ok.2.2⟩
  | summed => exact ⟨ok.1, ok.2.1, (same _ rfl).trans ok.2.2.1, ok.2.2.2⟩
  | savedMetadata => exact ⟨ok.1, ok.2.1, ok.2.2.1, (same _ rfl).trans ok.2.2.2⟩
  | savedManifest => exact ⟨ok.1, ok.2.1, ok.2.2.1, (same _ rfl).trans ok.2.2.2⟩
  | _ => exact ok

theorem ReaderOk.mono {phase : ReaderPhase} (ok : ReaderOk Npy published phase)
    (further : List Publication) : ReaderOk Npy (published ++ further) phase := by
  cases phase with
  | idle => trivial
  | started => trivial
  | hashing => exact ok.imp fun _ named => ⟨List.mem_append_left _ named.1, named.2⟩
  | checked => exact ok.imp fun _ named => ⟨List.mem_append_left _ named.1, named.2⟩
  | loading => exact ok.imp fun _ named => ⟨List.mem_append_left _ named.1, named.2⟩

variable (intact : Intact corpus files publishers readers published answers)
include intact

theorem Intact.publish {publisher : Nat} {phase : PublisherPhase}
    (filesOk : FilesOk corpus published changed) (ok : PublisherOk corpus changed phase)
    (apart : TmpsApart (Function.update publishers publisher phase))
    (others : ∀ other ≠ publisher, ∀ tmp, (publishers other).tmp? = some tmp →
      changed tmp = files tmp) :
    Intact corpus changed (Function.update publishers publisher phase) readers published
      answers := by
  refine ⟨filesOk, ?_, apart, intact.readersOk, intact.savable, intact.together⟩
  intro other
  by_cases same : other = publisher
  · subst same
    rw [Function.update_self]
    exact ok
  · rw [Function.update_of_ne same]
    exact (intact.publishersOk other).frame (others other same)

/-- A publisher moves on and leaves the files alone. -/
theorem Intact.move {publisher : Nat} {phase : PublisherPhase}
    (ok : PublisherOk corpus files phase)
    (apart : TmpsApart (Function.update publishers publisher phase)) :
    Intact corpus files (Function.update publishers publisher phase) readers published answers :=
  intact.publish intact.filesOk ok apart fun _ _ _ _ => rfl

/-- A publisher writes its temporary file, which is not that of another. -/
theorem Intact.temporary {publisher : Nat} {phase : PublisherPhase} {tmp : Text}
    {contents : Option (Contents Npy)} (hidden : Hidden tmp)
    (ok : PublisherOk corpus (Function.update files tmp contents) phase)
    (apart : TmpsApart (Function.update publishers publisher phase))
    (free : ∀ other ≠ publisher, (publishers other).tmp? ≠ some tmp) :
    Intact corpus (Function.update files tmp contents)
      (Function.update publishers publisher phase) readers published answers := by
  apply intact.publish (intact.filesOk.temporary hidden contents) ok apart
  intro other different otherTmp uses
  have apartTmp : otherTmp ≠ tmp := by
    rintro rfl
    exact free other different uses
  rw [Function.update_of_ne apartTmp]

omit [Sha256 Npy] [Numpy Npy] [Json.FloatRepr PyFloat] intact in
/-- The temporary file of a publisher is free of others, before and after a step. -/
theorem TmpsApart.free (apart : TmpsApart publishers) {publisher : Nat} {tmp : Text}
    (uses : (publishers publisher).tmp? = some tmp) :
    ∀ other ≠ publisher, (publishers other).tmp? ≠ some tmp :=
  fun other different otherUses => different (apart other publisher tmp otherUses uses)

omit [Sha256 Npy] [Numpy Npy] [Json.FloatRepr PyFloat] intact in
theorem TmpsApart.free_after {publisher : Nat} {phase : PublisherPhase} {tmp : Text}
    (apart : TmpsApart (Function.update publishers publisher phase))
    (uses : phase.tmp? = some tmp) :
    ∀ other ≠ publisher, (publishers other).tmp? ≠ some tmp := by
  intro other different otherUses
  apply different
  apply apart other publisher tmp
  · rwa [Function.update_of_ne different]
  · rwa [Function.update_self]

/-- A publisher renames its temporary file. -/
theorem Intact.rename {publisher : Nat} {phase : PublisherPhase} {tmp name : Text}
    {contents : Contents Npy} (uses : (publishers publisher).tmp? = some tmp)
    (shown : ¬ Hidden name) (placed : Placed corpus published name contents)
    (ok : PublisherOk corpus
      (Function.update (Function.update files name (some contents)) tmp none) phase)
    (apart : TmpsApart (Function.update publishers publisher phase)) :
    Intact corpus (Function.update (Function.update files name (some contents)) tmp none)
      (Function.update publishers publisher phase) readers published answers := by
  have hidden := PublisherPhase.tmp?_hidden (intact.publishersOk publisher) uses
  apply intact.publish ((intact.filesOk.place placed).temporary hidden none) ok apart
  intro other different otherTmp otherUses
  have apartTmp : otherTmp ≠ tmp := by
    rintro rfl
    exact intact.apart.free uses other different otherUses
  have apartName : otherTmp ≠ name := by
    rintro rfl
    exact shown (PublisherPhase.tmp?_hidden (intact.publishersOk other) otherUses)
  rw [Function.update_of_ne apartTmp, Function.update_of_ne apartName]

/-- One more publication has its manifest in place. -/
theorem Intact.announce {publication : Publication}
    (savable : Savable corpus publication.index) :
    Intact corpus files publishers readers (published ++ [publication]) answers := by
  refine ⟨intact.filesOk.mono _, intact.publishersOk, intact.apart,
    fun reader => (intact.readersOk reader).mono _, ?_, ?_⟩
  · intro other among
    rcases List.mem_append.mp among with earlier | new
    · exact intact.savable other earlier
    · rw [List.mem_singleton.mp new]
      exact savable
  · intro request answer among
    obtain ⟨other, otherIn, together⟩ := intact.together request answer among
    exact ⟨other, List.mem_append_left _ otherIn, together⟩

theorem Intact.read {reader : Nat} {phase : ReaderPhase} (ok : ReaderOk Npy published phase) :
    Intact corpus files publishers (Function.update readers reader phase) published answers := by
  refine ⟨intact.filesOk, intact.publishersOk, intact.apart, ?_, intact.savable, intact.together⟩
  intro other
  by_cases same : other = reader
  · subst same
    rw [Function.update_self]
    exact ok
  · rw [Function.update_of_ne same]
    exact intact.readersOk other

theorem Intact.answer {reader : Nat} {request : ReadRequest} {answer : Option VectorIndex}
    (together : ∀ index, answer = some index →
      ∃ publication ∈ published, Together Npy request publication index) :
    Intact corpus files publishers (Function.update readers reader .idle) published
      (answers ++ [(request, answer)]) := by
  have ok : ReaderOk Npy published .idle := trivial
  have idle := @Intact.read _ _ _ _ _ _ _ _ _ _ intact reader _ ok
  refine ⟨idle.filesOk, idle.publishersOk, idle.apart, idle.readersOk, idle.savable, ?_⟩
  intro other index among
  rcases List.mem_append.mp among with earlier | new
  · exact intact.together other index earlier
  · obtain ⟨rfl, same⟩ := Prod.mk.inj (List.mem_singleton.mp new)
    exact together index same.symm

end Parties

/-! ## Runs -/

section Runs

variable {Npy : Type} [Sha256 Npy] [Numpy Npy] [Json.FloatRepr PyFloat]
  {corpus : Set (Contents Npy)} {state after : CacheState Npy} {event : CacheEvent Npy}

variable (corpus) in
def CacheState.Intact (state : CacheState Npy) : Prop :=
  VectorCache.Intact corpus state.files state.publishers state.readers state.published
    state.answers

/-- A step of a publisher that has a temporary file of its own. -/
theorem publisherStep_intact {publisher : Nat} (intact : state.Intact corpus)
    (known : HashesIn corpus event) (apart : TmpsApart after.publishers)
    (stepped : publisherStep state publisher (state.publishers publisher) event = some after) :
    after.Intact corpus := by
  have ok := intact.publishersOk publisher
  generalize atPhase : state.publishers publisher = phase at stepped ok
  have uses : ∀ tmp, phase.tmp? = some tmp →
      (state.publishers publisher).tmp? = some tmp := by
    rw [atPhase]
    exact fun _ => id
  unfold publisherStep at stepped
  split at stepped
  next other publication =>
    obtain rfl := Option.some.inj stepped
    have isKnown : PublisherOk corpus state.files (.started publication) :=
      known other publication rfl
    exact intact.move isKnown apart
  next publication _ pid timeNs =>
    split at stepped <;> obtain rfl := Option.some.inj stepped
    next rectangular =>
      have hidden := hidden_matrixTmp pid timeNs
      exact intact.temporary hidden ⟨⟨ok, rectangular⟩, hidden⟩ apart (apart.free_after rfl)
    next => exact intact.move trivial apart
  next =>
    obtain rfl := Option.some.inj stepped
    exact intact.temporary ok.2 ok apart (apart.free_after rfl)
  next =>
    obtain rfl := Option.some.inj stepped
    exact intact.temporary ok.2 ⟨ok.1, ok.2, Function.update_self ..⟩ apart (apart.free_after rfl)
  next =>
    obtain rfl := Option.some.inj stepped
    exact intact.temporary ok.2 trivial apart (intact.apart.free (uses _ rfl))
  next publication tmp _ =>
    split at stepped <;> obtain rfl := Option.some.inj stepped
    next => exact intact.move trivial apart
    next contents present =>
      obtain rfl := Option.some.inj (present.symm.trans ok.2.2)
      exact intact.move ⟨ok.1, ok.2.1, ok.2.2, rfl⟩ apart
  next =>
    obtain rfl := Option.some.inj stepped
    exact intact.temporary ok.2.1 trivial apart (intact.apart.free (uses _ rfl))
  next publication tmp checksum _ =>
    obtain ⟨savable, hidden, saved, rfl⟩ := ok
    split at stepped <;> obtain rfl := Option.some.inj stepped
    next => exact intact.move trivial apart
    next contents present =>
      obtain rfl := Option.some.inj (present.symm.trans saved)
      -- The matrix appears under the name of its own digest.
      have placed : Placed corpus state.published
          (vectorPath (matrixContents Npy publication.index)) _ :=
        Or.inr (Or.inl ⟨savable.1.matrix, rfl⟩)
      exact intact.rename (uses _ rfl) (not_hidden_vectorPath _) placed ⟨savable, hidden, rfl⟩ apart
  next =>
    obtain rfl := Option.some.inj stepped
    exact intact.temporary ok.2.1 trivial apart (intact.apart.free (uses _ rfl))
  next =>
    obtain rfl := Option.some.inj stepped
    exact intact.temporary ok.2.1 ⟨ok.1, ok.2.2⟩ apart (intact.apart.free (uses _ rfl))
  next publication checksum _ pid timeNs =>
    obtain rfl := Option.some.inj stepped
    have hidden := hidden_bytesTmp (metadataPath (metadataContents Npy publication.index)) pid timeNs
    exact intact.temporary hidden ⟨ok.1, ok.2, hidden⟩ apart (apart.free_after rfl)
  next =>
    obtain rfl := Option.some.inj stepped
    exact intact.temporary ok.2.2 ok apart (apart.free_after rfl)
  next =>
    obtain rfl := Option.some.inj stepped
    exact intact.temporary ok.2.2 ⟨ok.1, ok.2.1, ok.2.2, Function.update_self ..⟩ apart
      (apart.free_after rfl)
  next publication checksum tmp _ =>
    obtain ⟨savable, summed, hidden, saved⟩ := ok
    split at stepped <;> obtain rfl := Option.some.inj stepped
    next => exact intact.move trivial apart
    next contents present =>
      obtain rfl := Option.some.inj (present.symm.trans saved)
      have placed : Placed corpus state.published
          (metadataPath (metadataContents Npy publication.index)) _ :=
        Or.inr (Or.inr ⟨savable.1.metadata, rfl⟩)
      exact intact.rename (uses _ rfl) (not_hidden_metadataPath _) placed ⟨savable, summed⟩ apart
  next publication checksum _ pid timeNs createdAt =>
    obtain rfl := Option.some.inj stepped
    have hidden := hidden_bytesTmp manifestFile pid timeNs
    exact intact.temporary hidden ⟨ok.1, ok.2, hidden⟩ apart (apart.free_after rfl)
  next =>
    obtain rfl := Option.some.inj stepped
    exact intact.temporary ok.2.2 ok apart (apart.free_after rfl)
  next =>
    obtain rfl := Option.some.inj stepped
    exact intact.temporary ok.2.2 ⟨ok.1, ok.2.1, ok.2.2, Function.update_self ..⟩ apart
      (apart.free_after rfl)
  next publication checksum createdAt tmp _ =>
    obtain ⟨savable, rfl, hidden, saved⟩ := ok
    split at stepped <;> obtain rfl := Option.some.inj stepped
    next => exact intact.move trivial apart
    next contents present =>
      obtain rfl := Option.some.inj (present.symm.trans saved)
      have placed : Placed corpus (state.published ++ [publication]) manifestFile
          (manifestContents publication
            (Sha256.sha256 (matrixContents Npy publication.index)) createdAt) :=
        Or.inl ⟨rfl, publication, by simp, createdAt, rfl⟩
      exact (intact.announce savable).rename (uses _ rfl) not_hidden_manifestFile placed trivial
        apart
  next =>
    obtain rfl := Option.some.inj stepped
    exact intact.move trivial apart
  next => cases stepped

variable [Rendering] [Numbers]

theorem readerStep_intact {reader : Nat} (collisionFree : CollisionFree corpus)
    (intact : state.Intact corpus)
    (stepped : readerStep state reader (state.readers reader) event = some after) :
    after.Intact corpus := by
  have ok := intact.readersOk reader
  generalize state.readers reader = phase at stepped ok
  unfold readerStep at stepped
  split at stepped
  next =>
    obtain rfl := Option.some.inj stepped
    exact intact.read trivial
  next request _ =>
    split at stepped
    next text isText =>
      split at stepped <;> obtain rfl := Option.some.inj stepped
      next vectors metadata found =>
        obtain ⟨publication, among, createdAt, same⟩ := intact.filesOk.manifest isText
        obtain rfl := Contents.text.inj same
        rw [stableJson, Json.loads_dumps _ (manifestPayload_distinct publication _ _),
          Option.bind_some] at found
        obtain ⟨asked, vectorsFile, metadataFile⟩ := manifestRefs_manifest found
        exact intact.read ⟨publication, among, asked, vectorsFile, metadataFile⟩
      next => exact intact.answer nofun
    next =>
      obtain rfl := Option.some.inj stepped
      exact intact.answer nofun
  next request vectors metadata _ =>
    split at stepped
    next =>
      split at stepped <;> obtain rfl := Option.some.inj stepped
      next => exact intact.read ok
      next => exact intact.answer nofun
    next =>
      obtain rfl := Option.some.inj stepped
      exact intact.answer nofun
  next request vectors metadata _ =>
    obtain ⟨publication, among, asked, vectorsFile, metadataFile⟩ := ok
    split at stepped
    next text isText =>
      split at stepped
      next =>
        obtain rfl := Option.some.inj stepped
        exact intact.answer nofun
      next =>
        split at stepped <;> obtain rfl := Option.some.inj stepped
        next chunks found =>
          have known := (intact.savable publication among).1
          have same := intact.filesOk.metadata collisionFree known (metadataFile ▸ isText)
          obtain rfl := Contents.text.inj same
          rw [stableJson, Json.loads_dumps _ (metadataPayload_distinct Npy publication.index),
            Option.bind_some] at found
          exact intact.read ⟨publication, among, asked, vectorsFile,
            (metadataChunks_metadata found).2⟩
        next => exact intact.answer nofun
    next =>
      obtain rfl := Option.some.inj stepped
      exact intact.answer nofun
  next request vectors chunks _ =>
    obtain ⟨publication, among, asked, vectorsFile, rfl⟩ := ok
    obtain rfl := Option.some.inj stepped
    apply intact.answer
    intro index answered
    obtain ⟨known, rectangular⟩ := intact.savable publication among
    cases present : state.files vectors.file with
    | none =>
        rw [present, vectorIndexFromChunks_none] at answered
        cases answered
    | some contents =>
        -- The file is read again, and may have been replaced since its digest was checked.
        obtain rfl := intact.filesOk.matrix collisionFree known (vectorsFile ▸ present)
        rw [present] at answered
        obtain ⟨identity, records, matrix⟩ := vectorIndexFromChunks_together rectangular answered
        exact ⟨publication, among, asked, identity, records, matrix⟩
  next => cases stepped

/-- Without collisions of digests or of temporary names, whatever `_read_index` returns has the
records and the rows of one publication of the requested identity. -/
theorem readIndex_together (collisionFree : CollisionFree corpus)
    (reached : ReachableVia cacheStep (Permitted corpus) .empty state) {request : ReadRequest}
    {answer : VectorIndex} (answered : (request, some answer) ∈ state.answers) :
    ∃ publication ∈ state.published, Together Npy request publication answer := by
  have intact : state.Intact corpus := by
    refine @ReachableVia.invariant _ _ _ _ _ _ (CacheState.Intact corpus) reached ?_ ?_
    · refine ⟨?_, fun _ => trivial, ?_, fun _ => trivial, ?_, ?_⟩ <;>
        simp [CacheState.empty, FilesOk, TmpsApart, PublisherPhase.tmp?]
    · intro before event after intact permitted stepped
      have apart := permitted.2 after stepped
      unfold cacheStep at stepped
      split at stepped
      · exact publisherStep_intact intact permitted.1 apart stepped
      · exact readerStep_intact collisionFree intact stepped
      · cases stepped
  exact intact.together request answer answered

end Runs

/-! ## Two runs -/

section Sample

/-- A library that saves the rows themselves. -/
@[reducible]
def sampleNumpy : Numpy (Nat × List (List PyFloat)) where
  toFloat32 := id
  norm row := row.headD (.finite 0)
  save columns rows := (columns, rows)
  load npy := some ⟨true, [npy.2.length, npy.1], npy.2⟩
  load_save _ _ _ := rfl

def sampleDigest (number : Nat) : Text :=
  (Nat.toDigits 10 (number % 10 ^ 16)).leftpad 16 '0' ++ List.replicate 48 '0'

def sampleNumber : PyFloat → Nat
  | .finite value => value.num.natAbs
  | _ => 0

/-- Digests that tell a few contents apart. -/
@[reducible]
def sampleSha256 : Sha256 (Nat × List (List PyFloat)) where
  sha256
    | .text text =>
        sampleDigest (text.foldl (fun sum char => (sum * 31 + char.toNat) % 10 ^ 15) 7)
    | .array npy => sampleDigest (10 ^ 15 + (npy.2.flatten.map sampleNumber).sum)

@[reducible]
def sampleRendering : Rendering where
  str _ := []

attribute [local instance] sampleFloats sampleNumbers sampleNumpy sampleSha256 sampleRendering

abbrev SampleState := CacheState (Nat × List (List PyFloat))

abbrev SampleEvent := CacheEvent (Nat × List (List PyFloat))

def sampleIdentity : VectorIdentity where
  sourceScope := "wiki"
  rootFingerprint := "hmac-sha256:1"
  projectionSignature := "sha256:2"
  contentHash := "sha256:3"
  providerId := "fastembed"
  providerArtifactFingerprint := "sha256:4"
  modelId := "model"
  modelRevision := "main"
  dimension := 1
  distanceMetric := "cosine"
  visibilityScope := "approved"

def samplePublication (pageId : Text) (value : ℚ) : Publication where
  index :=
    { identity := sampleIdentity
      records := [⟨pageId, "chunk", 0, 0, 1, "heading", "content", [.finite value], .finite value⟩]
      dimension := 1
      cacheHit := false
      vectorMatrix := none
      vectorNorms := none }
  packageVersion := "1"

def sampleRequest : ReadRequest where
  identity := sampleIdentity
  dimension := 1

/-- A publisher up to where its matrix is saved, and the rest of its steps. -/
def savesMatrix (publisher : Nat) (publication : Publication) (pid : Int) : List SampleEvent :=
  [.publish publisher publication, .openMatrix publisher pid 1, .close publisher]

def publishesMatrix (publisher : Nat) (pid : Int) : List SampleEvent :=
  [.sum publisher, .rename publisher, .unlink publisher, .openMetadata publisher pid 1,
    .close publisher, .rename publisher, .openManifest publisher pid 1 0, .close publisher,
    .rename publisher]

/-- One publisher, then one reader. -/
def publishAndRead : List SampleEvent :=
  savesMatrix 0 (samplePublication "first" 1) 1 ++ publishesMatrix 0 1 ++
    [.read 0 sampleRequest, .readManifest 0, .hashVectors 0, .readMetadata 0, .loadMatrix 0]

def afterCache (events : List SampleEvent) : SampleState :=
  (exec cacheStep .empty events).getD .empty

theorem exec_afterCache {events : List SampleEvent}
    (runs : (exec cacheStep (.empty : SampleState) events).isSome = true) :
    exec cacheStep .empty events = some (afterCache events) := by
  obtain ⟨state, ends⟩ := Option.isSome_iff_exists.mp runs
  simp [afterCache, ends]

/-- The contents two publications hash. -/
def sampleContents : List (Contents (Nat × List (List PyFloat))) :=
  [matrixContents _ (samplePublication "first" 1).index,
    metadataContents _ (samplePublication "first" 1).index,
    matrixContents _ (samplePublication "second" 2).index,
    metadataContents _ (samplePublication "second" 2).index]

def sampleCorpus : Set (Contents (Nat × List (List PyFloat))) := {contents | contents ∈ sampleContents}

theorem sampleCorpus_collisionFree : CollisionFree sampleCorpus := by
  have distinct : (sampleContents.map fun contents => (Sha256.sha256 contents).take 16).Nodup := by
    decide +kernel
  exact fun first firstIn second secondIn same =>
    List.inj_on_of_nodup_map distinct firstIn secondIn same

theorem samplePublication_known : InCorpus sampleCorpus (samplePublication "first" 1).index ∧
    InCorpus sampleCorpus (samplePublication "second" 2).index := by
  refine ⟨⟨?_, ?_⟩, ⟨?_, ?_⟩⟩
  · exact List.mem_cons_self
  · exact List.mem_cons_of_mem _ List.mem_cons_self
  · exact List.mem_cons_of_mem _ (List.mem_cons_of_mem _ List.mem_cons_self)
  · exact List.mem_cons_of_mem _ (List.mem_cons_of_mem _ (List.mem_cons_of_mem _ List.mem_cons_self))

/-- Only the first publisher has started. -/
def Solo (state : SampleState) : Prop := ∀ other ≠ 0, state.publishers other = .idle

theorem publisherStep_others {state after : SampleState} {event : SampleEvent}
    {publisher other : Nat} {phase : PublisherPhase} (different : other ≠ publisher)
    (stepped : publisherStep state publisher phase event = some after) :
    after.publishers other = state.publishers other := by
  unfold publisherStep at stepped
  split at stepped
  all_goals try split at stepped
  all_goals first
    | cases stepped; done
    | obtain rfl := Option.some.inj stepped
      exact Function.update_of_ne different _ _

theorem readerStep_publishers {state after : SampleState} {event : SampleEvent} {reader : Nat}
    {phase : ReaderPhase} (stepped : readerStep state reader phase event = some after) :
    after.publishers = state.publishers := by
  unfold readerStep at stepped
  split at stepped
  all_goals repeat' split at stepped
  all_goals first
    | cases stepped; done
    | obtain rfl := Option.some.inj stepped
      rfl

theorem Solo.step {state after : SampleState} {event : SampleEvent} (solo : Solo state)
    (own : event.publisher? = some 0 ∨ event.publisher? = none)
    (stepped : cacheStep state event = some after) : Solo after := by
  intro other different
  unfold cacheStep at stepped
  split at stepped
  next publisher isPublisher =>
    obtain rfl : publisher = 0 := by simpa [isPublisher] using own
    exact (publisherStep_others different stepped).trans (solo other different)
  next => exact (congrFun (readerStep_publishers stepped) other).trans (solo other different)
  next => cases stepped

theorem Solo.apart {state : SampleState} (solo : Solo state) : TmpsApart state.publishers := by
  have first_ : ∀ publisher tmp, (state.publishers publisher).tmp? = some tmp → publisher = 0 := by
    intro publisher tmp uses
    by_contra different
    rw [solo publisher different] at uses
    cases uses
  exact fun first second tmp firstUses secondUses =>
    (first_ first tmp firstUses).trans (first_ second tmp secondUses).symm

theorem Solo.admits {state : SampleState} {events : List SampleEvent} (solo : Solo state)
    (own : ∀ event ∈ events, event.publisher? = some 0 ∨ event.publisher? = none)
    (known : ∀ event ∈ events, HashesIn sampleCorpus event) :
    Admits cacheStep (Permitted sampleCorpus) state events := by
  induction events generalizing state with
  | nil => trivial
  | cons event rest inductionHypothesis =>
      have later : ∀ next, cacheStep state event = some next → Solo next :=
        fun next stepped => solo.step (own event List.mem_cons_self) stepped
      refine ⟨⟨known event List.mem_cons_self, fun next stepped => (later next stepped).apart⟩,
        fun next stepped => inductionHypothesis (later next stepped)
          (fun other among => own other (List.mem_cons_of_mem _ among))
          (fun other among => known other (List.mem_cons_of_mem _ among))⟩

/-- What the reader of that run returns. -/
def sampleAnswer : VectorIndex where
  identity := sampleIdentity
  records := [⟨"first", "chunk", 0, 0, 1, "heading", "content", [], .finite 1⟩]
  dimension := 1
  cacheHit := true
  vectorMatrix := some [[.finite 1]]
  vectorNorms := some [.finite 1]

theorem publishAndRead_runs : (exec cacheStep (.empty : SampleState) publishAndRead).isSome ∧
    (sampleRequest, some sampleAnswer) ∈ (afterCache publishAndRead).answers := by
  decide +kernel

theorem publishAndRead_reachable :
    ReachableVia cacheStep (Permitted sampleCorpus) .empty (afterCache publishAndRead) := by
  have solo : Solo .empty := fun _ _ => rfl
  refine reachableVia_of_exec (solo.admits ?_ ?_) (exec_afterCache publishAndRead_runs.1)
  · simp [publishAndRead, savesMatrix, publishesMatrix, CacheEvent.publisher?]
  · intro event among publisher publication isPublish
    subst isPublish
    obtain rfl : publication = samplePublication "first" 1 := by
      simp [publishAndRead, savesMatrix, publishesMatrix] at among
      exact among.2
    exact samplePublication_known.1

theorem readIndex_together_publishAndRead :
    ∃ publication ∈ (afterCache publishAndRead).published,
      Together (Nat × List (List PyFloat)) sampleRequest publication sampleAnswer :=
  readIndex_together sampleCorpus_collisionFree publishAndRead_reachable publishAndRead_runs.2

/-- Two publishers use one temporary file: the first one sums and renames what the second one
saved.  The second one ends, and its publication is repeated while a reader is busy. -/
def sharedTmp : List SampleEvent :=
  savesMatrix 0 (samplePublication "first" 1) 1 ++ savesMatrix 1 (samplePublication "second" 2) 1 ++
    publishesMatrix 0 1 ++ [.read 0 sampleRequest, .readManifest 0, .crash 1] ++
    savesMatrix 2 (samplePublication "second" 2) 2 ++ publishesMatrix 2 2 ++
    [.hashVectors 0, .readMetadata 0, .loadMatrix 0]

/-- The records of the first publication with the matrix of the second one. -/
def mixedAnswer : VectorIndex where
  identity := sampleIdentity
  records := [⟨"first", "chunk", 0, 0, 1, "heading", "content", [], .finite 2⟩]
  dimension := 1
  cacheHit := true
  vectorMatrix := some [[.finite 2]]
  vectorNorms := some [.finite 2]

theorem sharedTmp_mixed :
    ¬ ∀ (corpus : Set (Contents (Nat × List (List PyFloat)))) (state : SampleState),
      CollisionFree corpus →
      ReachableVia cacheStep (fun _ event => HashesIn corpus event) .empty state →
      ∀ request answer, (request, some answer) ∈ state.answers →
        ∃ publication ∈ state.published,
          Together (Nat × List (List PyFloat)) request publication answer := by
  intro claimed
  have known : ∀ event ∈ sharedTmp, HashesIn sampleCorpus event := by
    intro event among publisher publication isPublish
    subst isPublish
    have either : publication = samplePublication "first" 1 ∨
        publication = samplePublication "second" 2 := by
      simp [sharedTmp, savesMatrix, publishesMatrix] at among
      grind
    rcases either with rfl | rfl
    · exact samplePublication_known.1
    · exact samplePublication_known.2
  obtain ⟨runs, answered, published⟩ : (exec cacheStep (.empty : SampleState) sharedTmp).isSome ∧
      (sampleRequest, some mixedAnswer) ∈ (afterCache sharedTmp).answers ∧
      ∀ publication ∈ (afterCache sharedTmp).published,
        publication = samplePublication "first" 1 ∨ publication = samplePublication "second" 2 := by
    decide +kernel
  have reached : ReachableVia cacheStep (fun _ event => HashesIn sampleCorpus event) .empty
      (afterCache sharedTmp) :=
    reachableVia_of_exec (admits_of_forall fun _ => known) (exec_afterCache runs)
  obtain ⟨publication, among, together⟩ :=
    claimed sampleCorpus _ sampleCorpus_collisionFree reached sampleRequest mixedAnswer answered
  rcases published publication among with rfl | rfl
  · have matrix : mixedAnswer.vectorMatrix ≠
        some (float32Rows (Nat × List (List PyFloat)) (samplePublication "first" 1).index) := by
      decide +kernel
    exact matrix together.matrix
  · have records : mixedAnswer.records ≠ (samplePublication "second" 2).index.records.map
        (rereadRecord (Nat × List (List PyFloat))) := by
      decide +kernel
    exact records together.records

end Sample

end LlmWikiServe.VectorCache
