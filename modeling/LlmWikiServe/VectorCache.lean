import LlmWikiServe.Foundation.Transition
import LlmWikiServe.ManagedContext

/-!
# The records of the vector cache

A record is a directory of three files: the manifest, and two sidecars named by their digests.
Publishers write a temporary file and rename it, the manifest last; readers follow the manifest.
A publisher may end anywhere, and steps of all parties interleave.
-/

namespace LlmWikiServe.VectorCache

open Transition ManagedContext

/-! ## Identities and indexes -/

abbrev Payload := Json PyFloat

/-- `VECTOR_TEXT_SCHEMA_ID` -/
def vectorTextSchemaId : Text := "llmwiki-vector-text-v1"

/-- `VECTOR_INDEX_SCHEMA_ID` -/
def vectorIndexSchemaId : Text := "llmwiki-vector-index-v2"

/-- `VECTOR_CACHE_SCHEMA_VERSION` -/
def vectorCacheSchemaVersion : Text := "llmwiki-vector-cache-v2"

/-- `VECTOR_METADATA_SCHEMA_ID` -/
def vectorMetadataSchemaId : Text := "llmwiki-vector-chunks-v1"

/-- What `identity` puts together. -/
structure VectorIdentity where
  sourceScope : Text
  rootFingerprint : Text
  projectionSignature : Text
  contentHash : Text
  providerId : Text
  providerArtifactFingerprint : Text
  modelId : Text
  modelRevision : Text
  dimension : Int
  distanceMetric : Text
  visibilityScope : Text
  deriving DecidableEq

def VectorIdentity.members (identity : VectorIdentity) : List (Text × Payload) :=
  [("cache_schema", .string vectorCacheSchemaVersion),
    ("source_scope", .string identity.sourceScope),
    ("root_fingerprint", .string identity.rootFingerprint),
    ("projection_signature", .string identity.projectionSignature),
    ("content_hash", .string identity.contentHash),
    ("provider_id", .string identity.providerId),
    ("provider_artifact_fingerprint", .string identity.providerArtifactFingerprint),
    ("model_id", .string identity.modelId),
    ("model_revision", .string identity.modelRevision),
    ("dimension", .int identity.dimension),
    ("distance_metric", .string identity.distanceMetric),
    ("text_schema", .string vectorTextSchemaId),
    ("index_schema", .string vectorIndexSchemaId),
    ("visibility_scope", .string identity.visibilityScope)]

structure VectorChunkRecord where
  pageId : Text
  chunkId : Text
  ordinal : Int
  start : Int
  end_ : Int
  headingHash : Text
  pageContentHash : Text
  vector : List PyFloat
  norm : PyFloat
  deriving DecidableEq

structure VectorIndex where
  identity : VectorIdentity
  records : List VectorChunkRecord
  dimension : Nat
  cacheHit : Bool
  vectorMatrix : Option (List (List PyFloat))
  vectorNorms : Option (List PyFloat)
  deriving DecidableEq

/-! ## Files -/

/-- The contents of a file: UTF-8 text, or the bytes of an array, which are none. -/
inductive Contents (Npy : Type) where
  | text (text : Text)
  | array (npy : Npy)
  deriving DecidableEq

structure LoadedArray where
  isFloat32 : Bool
  shape : List Nat
  rows : List (List PyFloat)

class Numpy (Npy : Type) where
  toFloat32 : PyFloat → PyFloat
  /-- The norm of a row, as `float32`. -/
  norm : List PyFloat → PyFloat
  /-- `np.save` of a `float32` matrix of so many columns. -/
  save : Nat → List (List PyFloat) → Npy
  load : Npy → Option LoadedArray
  load_save : ∀ columns rows, (∀ row ∈ rows, row.length = columns) →
    load (save columns rows) = some ⟨true, [rows.length, columns], rows⟩

/-- The digest of a file, in hexadecimal. -/
class Sha256 (Npy : Type) where
  sha256 : Contents Npy → Text

section Payloads

variable {Npy : Type} [Sha256 Npy] [Json.FloatRepr PyFloat]

/-- The text `stable_json_bytes` encodes. -/
def stableJson (payload : Payload) : Text := Json.dumps .compact payload

variable (Npy) in
def stableJsonDigest (payload : Payload) : Text :=
  Sha256.sha256 (Contents.text (stableJson payload) : Contents Npy)

omit [Json.FloatRepr PyFloat] in
def sidecarContentPath (kind checksum suffix : Text) : Text :=
  kind ++ '.' :: checksum.take 16 ++ suffix

omit [Json.FloatRepr PyFloat] in
def vectorPath (contents : Contents Npy) : Text :=
  sidecarContentPath "vectors" (Sha256.sha256 contents) ".npy"

omit [Json.FloatRepr PyFloat] in
def metadataPath (contents : Contents Npy) : Text :=
  sidecarContentPath "chunks" (Sha256.sha256 contents) ".json"

/-- `VECTOR_MANIFEST_FILE` -/
def manifestFile : Text := "index.json"

variable (Npy) in
def sidecarIdentityFields (identity : VectorIdentity) : List (Text × Payload) :=
  [("cache_schema", .string vectorCacheSchemaVersion),
    ("identity_digest", .string (stableJsonDigest Npy (.object identity.members))),
    ("provider_id", .string identity.providerId),
    ("provider_artifact_fingerprint", .string identity.providerArtifactFingerprint),
    ("model_id", .string identity.modelId),
    ("model_revision", .string identity.modelRevision),
    ("content_hash", .string identity.contentHash),
    ("visibility_scope", .string identity.visibilityScope),
    ("text_schema", .string vectorTextSchemaId),
    ("index_schema", .string vectorIndexSchemaId)]

omit [Json.FloatRepr PyFloat] in
def chunkMembers (record : VectorChunkRecord) : List (Text × Payload) :=
  [("page_id", .string record.pageId), ("chunk_id", .string record.chunkId),
    ("ordinal", .int record.ordinal), ("start", .int record.start), ("end", .int record.end_),
    ("heading_hash", .string record.headingHash),
    ("page_content_hash", .string record.pageContentHash)]

omit [Json.FloatRepr PyFloat] in
def chunkPayload (record : VectorChunkRecord) : Payload := .object (chunkMembers record)

variable (Npy) in
def vectorIndexMetadataPayload (index : VectorIndex) : Payload :=
  .object
    [("cache_schema", .string vectorCacheSchemaVersion),
      ("index_schema", .string vectorIndexSchemaId),
      ("metadata_schema", .string vectorMetadataSchemaId),
      ("identity_digest", .string (stableJsonDigest Npy (.object index.identity.members))),
      ("dimension", .int index.dimension), ("chunk_count", .int index.records.length),
      ("chunks", .array (index.records.map chunkPayload))]

variable [Numpy Npy]

omit [Sha256 Npy] [Json.FloatRepr PyFloat] in
variable (Npy) in
/-- The rows of `np.asarray(vectors, dtype=np.float32)`. -/
def float32Rows (index : VectorIndex) : List (List PyFloat) :=
  index.records.map fun record => record.vector.map (Numpy.toFloat32 Npy)

omit [Sha256 Npy] [Json.FloatRepr PyFloat] in
variable (Npy) in
def matrixContents (index : VectorIndex) : Contents Npy :=
  .array (Numpy.save index.dimension (float32Rows Npy index))

omit [Numpy Npy] in
variable (Npy) in
def metadataContents (index : VectorIndex) : Contents Npy :=
  .text (stableJson (vectorIndexMetadataPayload Npy index))

omit [Sha256 Npy] [Json.FloatRepr PyFloat] [Numpy Npy] in
/-- The matrix has the shape `vector_matrix_array_for_records` checks. -/
def isRectangular (index : VectorIndex) : Bool :=
  index.records.all fun record => record.vector.length = index.dimension

structure Publication where
  index : VectorIndex
  packageVersion : Text
  deriving DecidableEq

omit [Sha256 Npy] [Json.FloatRepr PyFloat] [Numpy Npy] in
/-- What the manifest says of the matrix besides the identity. -/
def vectorsFields (index : VectorIndex) (checksum : Text) : List (Text × Payload) :=
  [("file", .string (sidecarContentPath "vectors" checksum ".npy")), ("format", .string "npy"),
    ("sha256", .string checksum),
    ("shape", .array [.int index.records.length, .int index.dimension]),
    ("dtype", .string "float32")]

omit [Numpy Npy] in
variable (Npy) in
def vectorsRef (index : VectorIndex) (checksum : Text) : Payload :=
  .object (sidecarIdentityFields Npy index.identity ++ vectorsFields index checksum)

omit [Numpy Npy] in
variable (Npy) in
/-- What the manifest says of the metadata besides the identity. -/
def metadataFields (index : VectorIndex) : List (Text × Payload) :=
  [("file", .string (metadataPath (metadataContents Npy index))), ("format", .string "json"),
    ("schema", .string vectorMetadataSchemaId),
    ("sha256", .string (Sha256.sha256 (metadataContents Npy index))),
    ("chunk_count", .int index.records.length)]

omit [Numpy Npy] in
variable (Npy) in
def metadataRef (index : VectorIndex) : Payload :=
  .object (sidecarIdentityFields Npy index.identity ++ metadataFields Npy index)

omit [Numpy Npy] in
variable (Npy) in
def manifestPayload (publication : Publication) (checksum : Text) (createdAt : Int) : Payload :=
  let index := publication.index
  .object
    [("cache_schema", .string vectorCacheSchemaVersion), ("identity", .object index.identity.members),
      ("identity_digest", .string (stableJsonDigest Npy (.object index.identity.members))),
      ("sidecars", .object
        [("vectors", vectorsRef Npy index checksum), ("metadata", metadataRef Npy index)]),
      ("chunk_count", .int index.records.length), ("dimension", .int index.dimension),
      ("vector_dtype", .string "float32"),
      ("vector_shape", .array [.int index.records.length, .int index.dimension]),
      ("created_at", .int createdAt), ("package_version", .string publication.packageVersion)]

end Payloads

/-! ## Readers -/

section Readers

/-- `value == text` -/
def equalsText (value : Payload) (text : Text) : Bool :=
  match value with
  | .string found => found = text
  | _ => false

/-- `value == number` -/
def equalsInt (value : Payload) (number : Int) : Bool :=
  match value with
  | .bool found => (if found then 1 else 0) = number
  | .int found => found = number
  | .float (.finite found) => found = number
  | _ => false

/-- `value == expected`, where a text or an integer is expected. -/
def equalsScalar (value expected : Payload) : Bool :=
  match expected with
  | .string text => equalsText value text
  | .int number => equalsInt value number
  | _ => false

/-- `value == expected`, where a dictionary of texts and integers is expected. -/
def equalsDict (value : Payload) (expected : List (Text × Payload)) : Bool :=
  match value with
  | .object found =>
      found.length = expected.length &&
        expected.all fun member => equalsScalar (value.get member.1) member.2
  | _ => false

/-- `value == numbers` -/
def equalsInts (value : Payload) (numbers : List Int) : Bool :=
  match value with
  | .array items =>
      items.length = numbers.length &&
        (items.zip numbers).all fun (item, number) => equalsInt item number
  | _ => false

/-- What a manifest says of a sidecar. -/
structure SidecarRef where
  file : Text
  sha256 : Text
  ref : Payload

def isHexDigest (checksum : Text) : Bool :=
  checksum.length = 64 &&
    checksum.all fun char => char.isDigit || ('a' ≤ char && char ≤ 'f')

def sidecarManifestRef (manifest : Payload) (name : Text) : Option SidecarRef :=
  let ref := (manifest.get "sidecars").get name
  match ref.get "file", ref.get "sha256" with
  | .string file, .string checksum => if isHexDigest checksum then some ⟨file, checksum, ref⟩ else none
  | _, _ => none

/-- The name is that of an entry of the record directory. -/
def sidecarFilePath (file : Text) : Bool :=
  file ≠ [] && file ≠ "." && !file.any fun char => char = '/' || char = '\\' || char = ':'

variable (Npy : Type) [Sha256 Npy] [Json.FloatRepr PyFloat]

def sidecarRefMatchesIdentity (ref : Payload) (identity : VectorIdentity) : Bool :=
  (sidecarIdentityFields Npy identity).all fun member =>
    equalsScalar (ref.get member.1) member.2

def manifestRefs (manifest : Payload) (identity : VectorIdentity) (dimension : Nat) :
    Option (SidecarRef × SidecarRef) :=
  if !equalsDict (manifest.get "identity") identity.members then none
  else if !equalsText (manifest.get "cache_schema") vectorCacheSchemaVersion then none
  else if !equalsText (manifest.get "identity_digest")
      (stableJsonDigest Npy (.object identity.members)) then none
  else if !equalsInt (manifest.get "dimension") dimension then none
  else
    match sidecarManifestRef manifest "vectors", sidecarManifestRef manifest "metadata" with
    | some vectors, some metadata =>
        if !sidecarRefMatchesIdentity Npy vectors.ref identity then none
        else if !sidecarRefMatchesIdentity Npy metadata.ref identity then none
        else if !equalsText (vectors.ref.get "format") "npy" ||
            !equalsText (metadata.ref.get "format") "json" then none
        else if !equalsText (metadata.ref.get "schema") vectorMetadataSchemaId then none
        else if !sidecarFilePath vectors.file || !sidecarFilePath metadata.file then none
        else some (vectors, metadata)
    | _, _ => none

/-- The chunks of a metadata sidecar that passes the checks before the matrix is loaded. -/
def metadataChunks (metadata : Payload) (identity : VectorIdentity) (dimension : Nat) :
    Option (List Payload) :=
  if !equalsText (metadata.get "cache_schema") vectorCacheSchemaVersion then none
  else if !equalsText (metadata.get "index_schema") vectorIndexSchemaId then none
  else if !equalsText (metadata.get "metadata_schema") vectorMetadataSchemaId then none
  else if !equalsText (metadata.get "identity_digest")
      (stableJsonDigest Npy (.object identity.members)) then none
  else if !equalsInt (metadata.get "dimension") dimension then none
  else
    match metadata.get "chunks" with
    | .array chunks =>
        if equalsInt (metadata.get "chunk_count") chunks.length then some chunks else none
    | _ => none

variable {Npy}

omit [Sha256 Npy] [Json.FloatRepr PyFloat] in
def loadVectorMatrix [Numpy Npy] (contents : Option (Contents Npy)) (vectors : SidecarRef)
    (rows columns : Nat) : Option (List (List PyFloat)) :=
  if !equalsInts (vectors.ref.get "shape") [rows, columns] then none
  else if !equalsText (vectors.ref.get "dtype") "float32" then none
  else
    match contents with
    | some (.array npy) =>
        (Numpy.load npy).bind fun loaded =>
          if loaded.shape = [rows, columns] && loaded.isFloat32 then some loaded.rows else none
    | _ => none

variable (Npy) in
omit [Sha256 Npy] [Json.FloatRepr PyFloat] in
def vectorNormsForMatrix [Numpy Npy] (rows : List (List PyFloat)) : Option (List PyFloat) :=
  let norms := rows.map (Numpy.norm Npy)
  if norms.all PyFloat.isFinite then some norms else none

/-- `str(value)` of a value that is no string. -/
class Rendering where
  str : Payload → Text

variable [Rendering] [Numbers]

omit [Sha256 Npy] [Json.FloatRepr PyFloat] [Numbers] in
def strOf : Payload → Text
  | .string text => text
  | value => Rendering.str value

omit [Sha256 Npy] [Json.FloatRepr PyFloat] [Rendering] in
/-- `int(value)`, absent where it raises. -/
def intOf : Payload → Option Int
  | .bool value => some (if value then 1 else 0)
  | .int value => some value
  | .float (.finite value) => some (if value < 0 then -(-value).floor else value.floor)
  | .string text => Numbers.intOfText text
  | _ => none

/-- The names `vector_metadata_contains_private_fields` looks for. -/
def privateFields : List Text := ["text", "snippet", "query", "vector", "path", "source_refs"]

omit [Sha256 Npy] [Json.FloatRepr PyFloat] in
def recordOfChunk (raw : Payload) (norm : PyFloat) : Option VectorChunkRecord :=
  match raw with
  | .object members =>
      if privateFields.any fun name => name ∈ members.map Prod.fst then none
      else do
        let pageId ← (Keyed.get? members "page_id").map strOf
        let chunkId ← (Keyed.get? members "chunk_id").map strOf
        let ordinal ← (Keyed.get? members "ordinal").bind intOf
        let start ← (Keyed.get? members "start").bind intOf
        let end_ ← (Keyed.get? members "end").bind intOf
        let headingHash ← (Keyed.get? members "heading_hash").map strOf
        let pageContentHash ← (Keyed.get? members "page_content_hash").map strOf
        if ordinal < 0 || start < 0 || end_ < start then none
        else if pageId = [] || chunkId = [] || !norm.isFinite then none
        else
          some ⟨pageId, chunkId, ordinal, start, end_, headingHash, pageContentHash, [], norm⟩
  | _ => none

omit [Sha256 Npy] [Json.FloatRepr PyFloat] in
/-- The rest of `vector_index_from_sidecars`, from where the matrix is loaded. -/
def vectorIndexFromChunks [Numpy Npy] (contents : Option (Contents Npy)) (vectors : SidecarRef)
    (chunks : List Payload) (identity : VectorIdentity) (dimension : Nat) :
    Option VectorIndex := do
  let matrix ← loadVectorMatrix contents vectors chunks.length dimension
  let norms ← vectorNormsForMatrix Npy matrix
  if norms.length ≠ chunks.length then none
  else
    let records ← (chunks.zip norms).mapM fun (raw, norm) => recordOfChunk raw norm
    some
      { identity, records, dimension, cacheHit := true, vectorMatrix := some matrix,
        vectorNorms := some norms }

end Readers

/-! ## Steps -/

/-- Where a publisher is in `_publish`; `tmp` is the temporary file it is using. -/
inductive PublisherPhase where
  | idle
  /-- Before the temporary file of the matrix is opened. -/
  | started (publication : Publication)
  | savingMatrix (publication : Publication) (tmp : Text)
  /-- Closed, before `sha256_file`. -/
  | savedMatrix (publication : Publication) (tmp : Text)
  /-- Before `os.replace`. -/
  | summed (publication : Publication) (tmp checksum : Text)
  /-- Before the `unlink` of the temporary file, which is no longer there. -/
  | renamedMatrix (publication : Publication) (tmp checksum : Text)
  | matrixDone (publication : Publication) (checksum : Text)
  | savingMetadata (publication : Publication) (checksum tmp : Text)
  | savedMetadata (publication : Publication) (checksum tmp : Text)
  | metadataDone (publication : Publication) (checksum : Text)
  | savingManifest (publication : Publication) (checksum : Text) (createdAt : Int) (tmp : Text)
  | savedManifest (publication : Publication) (checksum : Text) (createdAt : Int) (tmp : Text)

/-- The arguments of `_read_index`. -/
structure ReadRequest where
  identity : VectorIdentity
  dimension : Nat
  deriving DecidableEq

/-- Where a reader is in `_read_index`. -/
inductive ReaderPhase where
  | idle
  | started (request : ReadRequest)
  /-- Before the digest of the matrix file is computed. -/
  | hashing (request : ReadRequest) (vectors metadata : SidecarRef)
  /-- Before the metadata are read. -/
  | checked (request : ReadRequest) (vectors metadata : SidecarRef)
  /-- Before the matrix file is loaded. -/
  | loading (request : ReadRequest) (vectors : SidecarRef) (chunks : List Payload)

structure CacheState (Npy : Type) where
  /-- The files of the record directory. -/
  files : Text → Option (Contents Npy)
  publishers : Nat → PublisherPhase
  readers : Nat → ReaderPhase
  /-- The publications whose manifest was put in place. -/
  published : List Publication
  /-- What readers have returned. -/
  answers : List (ReadRequest × Option VectorIndex)

inductive CacheEvent (Npy : Type) where
  | publish (publisher : Nat) (publication : Publication)
  | openMatrix (publisher : Nat) (pid timeNs : Int)
  | openMetadata (publisher : Nat) (pid timeNs : Int)
  | openManifest (publisher : Nat) (pid timeNs createdAt : Int)
  /-- The open file has these contents for now. -/
  | write (publisher : Nat) (contents : Contents Npy)
  /-- The file is written in full and closed. -/
  | close (publisher : Nat)
  | sum (publisher : Nat)
  | rename (publisher : Nat)
  | unlink (publisher : Nat)
  /-- Saving the matrix raises; its temporary file is removed. -/
  | fail (publisher : Nat)
  /-- The publisher ends wherever it is. -/
  | crash (publisher : Nat)
  | read (reader : Nat) (request : ReadRequest)
  | readManifest (reader : Nat)
  | hashVectors (reader : Nat)
  | readMetadata (reader : Nat)
  | loadMatrix (reader : Nat)

def matrixTmp (pid timeNs : Int) : Text :=
  (".vectors." : Text) ++ Json.intToken pid ++ '.' :: Json.intToken timeNs ++ (".tmp" : Text)

/-- The temporary file of `atomic_bytes_write`. -/
def bytesTmp (file : Text) (pid timeNs : Int) : Text :=
  '.' :: file ++ '.' :: Json.intToken pid ++ '.' :: Json.intToken timeNs ++ (".tmp" : Text)

section Steps

variable {Npy : Type}

def CacheState.withPublisher (state : CacheState Npy) (publisher : Nat) (phase : PublisherPhase) :
    CacheState Npy :=
  { state with publishers := Function.update state.publishers publisher phase }

def CacheState.withReader (state : CacheState Npy) (reader : Nat) (phase : ReaderPhase) :
    CacheState Npy :=
  { state with readers := Function.update state.readers reader phase }

def CacheState.withFile (state : CacheState Npy) (file : Text) (contents : Option (Contents Npy)) :
    CacheState Npy :=
  { state with files := Function.update state.files file contents }

/-- `os.replace` -/
def CacheState.replaced (state : CacheState Npy) (tmp file : Text) (contents : Contents Npy) :
    CacheState Npy :=
  (state.withFile file (some contents)).withFile tmp none

def CacheState.answered (state : CacheState Npy) (reader : Nat) (request : ReadRequest)
    (answer : Option VectorIndex) : CacheState Npy :=
  { state.withReader reader .idle with answers := state.answers ++ [(request, answer)] }

variable [Sha256 Npy] [Numpy Npy] [Json.FloatRepr PyFloat]

def manifestContents (publication : Publication) (checksum : Text) (createdAt : Int) :
    Contents Npy :=
  .text (stableJson (manifestPayload Npy publication checksum createdAt))

def publisherStep (state : CacheState Npy) (publisher : Nat) :
    PublisherPhase → CacheEvent Npy → Option (CacheState Npy)
  | .idle, .publish _ publication => some (state.withPublisher publisher (.started publication))
  | .started publication, .openMatrix _ pid timeNs =>
      -- The shape of the matrix is checked before the file is opened.
      if isRectangular publication.index then
        some ((state.withFile (matrixTmp pid timeNs) (some (.text []))).withPublisher publisher
          (.savingMatrix publication (matrixTmp pid timeNs)))
      else some (state.withPublisher publisher .idle)
  | .savingMatrix publication tmp, .write _ contents =>
      some ((state.withFile tmp (some contents)).withPublisher publisher
        (.savingMatrix publication tmp))
  | .savingMatrix publication tmp, .close _ =>
      some ((state.withFile tmp (some (matrixContents Npy publication.index))).withPublisher
        publisher (.savedMatrix publication tmp))
  | .savingMatrix _ tmp, .fail _ => some ((state.withFile tmp none).withPublisher publisher .idle)
  | .savedMatrix publication tmp, .sum _ =>
      match state.files tmp with
      | none => some (state.withPublisher publisher .idle)
      | some contents =>
          some (state.withPublisher publisher
            (.summed publication tmp (Sha256.sha256 contents)))
  | .savedMatrix _ tmp, .fail _ => some ((state.withFile tmp none).withPublisher publisher .idle)
  | .summed publication tmp checksum, .rename _ =>
      match state.files tmp with
      | none => some (state.withPublisher publisher .idle)
      | some contents =>
          some ((state.replaced tmp (sidecarContentPath "vectors" checksum ".npy")
            contents).withPublisher publisher (.renamedMatrix publication tmp checksum))
  | .summed _ tmp _, .fail _ => some ((state.withFile tmp none).withPublisher publisher .idle)
  | .renamedMatrix publication tmp checksum, .unlink _ =>
      some ((state.withFile tmp none).withPublisher publisher (.matrixDone publication checksum))
  | .matrixDone publication checksum, .openMetadata _ pid timeNs =>
      let tmp := bytesTmp (metadataPath (metadataContents Npy publication.index)) pid timeNs
      some ((state.withFile tmp (some (.text []))).withPublisher publisher
        (.savingMetadata publication checksum tmp))
  | .savingMetadata publication checksum tmp, .write _ contents =>
      some ((state.withFile tmp (some contents)).withPublisher publisher
        (.savingMetadata publication checksum tmp))
  | .savingMetadata publication checksum tmp, .close _ =>
      some ((state.withFile tmp (some (metadataContents Npy publication.index))).withPublisher
        publisher (.savedMetadata publication checksum tmp))
  | .savedMetadata publication checksum tmp, .rename _ =>
      match state.files tmp with
      | none => some (state.withPublisher publisher .idle)
      | some contents =>
          some ((state.replaced tmp (metadataPath (metadataContents Npy publication.index))
            contents).withPublisher publisher (.metadataDone publication checksum))
  | .metadataDone publication checksum, .openManifest _ pid timeNs createdAt =>
      let tmp := bytesTmp manifestFile pid timeNs
      some ((state.withFile tmp (some (.text []))).withPublisher publisher
        (.savingManifest publication checksum createdAt tmp))
  | .savingManifest publication checksum createdAt tmp, .write _ contents =>
      some ((state.withFile tmp (some contents)).withPublisher publisher
        (.savingManifest publication checksum createdAt tmp))
  | .savingManifest publication checksum createdAt tmp, .close _ =>
      some ((state.withFile tmp (some (manifestContents publication checksum
        createdAt))).withPublisher publisher (.savedManifest publication checksum createdAt tmp))
  | .savedManifest publication _ _ tmp, .rename _ =>
      match state.files tmp with
      | none => some (state.withPublisher publisher .idle)
      | some contents =>
          some { (state.replaced tmp manifestFile contents).withPublisher publisher .idle with
            published := state.published ++ [publication] }
  | _, .crash _ => some (state.withPublisher publisher .idle)
  | _, _ => none

variable [Rendering] [Numbers]

def readerStep (state : CacheState Npy) (reader : Nat) :
    ReaderPhase → CacheEvent Npy → Option (CacheState Npy)
  | .idle, .read _ request => some (state.withReader reader (.started request))
  | .started request, .readManifest _ =>
      match state.files manifestFile with
      | some (.text text) =>
          match (Json.loads text).bind fun manifest =>
              manifestRefs Npy manifest request.identity request.dimension with
          | some (vectors, metadata) =>
              some (state.withReader reader (.hashing request vectors metadata))
          | none => some (state.answered reader request none)
      | _ => some (state.answered reader request none)
  | .hashing request vectors metadata, .hashVectors _ =>
      match state.files vectors.file with
      | some contents =>
          if Sha256.sha256 contents = vectors.sha256 then
            some (state.withReader reader (.checked request vectors metadata))
          else some (state.answered reader request none)
      | none => some (state.answered reader request none)
  | .checked request vectors metadata, .readMetadata _ =>
      match state.files metadata.file with
      | some (.text text) =>
          if Sha256.sha256 (.text text : Contents Npy) ≠ metadata.sha256 then
            some (state.answered reader request none)
          else
            match (Json.loads text).bind fun payload =>
                metadataChunks Npy payload request.identity request.dimension with
            | some chunks => some (state.withReader reader (.loading request vectors chunks))
            | none => some (state.answered reader request none)
      | _ => some (state.answered reader request none)
  | .loading request vectors chunks, .loadMatrix _ =>
      some (state.answered reader request
        (vectorIndexFromChunks (state.files vectors.file) vectors chunks request.identity
          request.dimension))
  | _, _ => none

def CacheEvent.publisher? : CacheEvent Npy → Option Nat
  | .publish publisher _ => some publisher
  | .openMatrix publisher _ _ => some publisher
  | .openMetadata publisher _ _ => some publisher
  | .openManifest publisher _ _ _ => some publisher
  | .write publisher _ => some publisher
  | .close publisher => some publisher
  | .sum publisher => some publisher
  | .rename publisher => some publisher
  | .unlink publisher => some publisher
  | .fail publisher => some publisher
  | .crash publisher => some publisher
  | _ => none

def CacheEvent.reader? : CacheEvent Npy → Option Nat
  | .read reader _ => some reader
  | .readManifest reader => some reader
  | .hashVectors reader => some reader
  | .readMetadata reader => some reader
  | .loadMatrix reader => some reader
  | _ => none

def cacheStep (state : CacheState Npy) (event : CacheEvent Npy) : Option (CacheState Npy) :=
  match event.publisher?, event.reader? with
  | some publisher, _ => publisherStep state publisher (state.publishers publisher) event
  | none, some reader => readerStep state reader (state.readers reader) event
  | none, none => none

def CacheState.empty : CacheState Npy where
  files _ := none
  publishers _ := .idle
  readers _ := .idle
  published := []
  answers := []

end Steps

end LlmWikiServe.VectorCache
