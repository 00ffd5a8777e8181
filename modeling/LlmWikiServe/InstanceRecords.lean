import LlmWikiServe.GraphStore
import LlmWikiServe.ManagedContext

/-!
# The registry of local instances

Every served wiki leaves a JSON record in a directory while it runs.  A new record takes the place
of those with its process or its endpoint.  The directory is read as a whole before anything is
written, and files that hold no record are left alone.
-/

namespace LlmWikiServe.Instances

open ManagedContext

/-! ## Records -/

def defaultServeHost : Text := "127.0.0.1"

structure InstanceRecord where
  pid : Int
  host : Text
  port : Int
  root : Text
  url : Text
  sourceId : Text
  bundleId : Text
  adapter : Text
  implementation : Text
  pageCount : Int
  approvedPageCount : Int
  startedAt : Text
  processCreateTime : Option PyFloat := none
  schemaVersion : Int := 2
  deriving DecidableEq

def urlHost (host : Text) : Text :=
  let stripped := Text.strip host
  if Text.startsWith stripped "[" && Text.endsWith stripped "]" then stripped
  else if ':' ∈ stripped then '[' :: stripped ++ [']']
  else if stripped = [] then defaultServeHost else stripped

def instanceUrl (host : Text) (port : Int) : Text :=
  ("http://" : Text) ++ urlHost host ++ ':' :: Text.ofInt port

/-- `model_dump(include_process_create_time=True)` -/
def InstanceRecord.members (record : InstanceRecord) : List (Text × Json PyFloat) :=
  [("pid", .int record.pid), ("host", .string record.host), ("port", .int record.port),
    ("root", .string record.root), ("url", .string record.url),
    ("source_id", .string record.sourceId), ("bundle_id", .string record.bundleId),
    ("adapter", .string record.adapter), ("implementation", .string record.implementation),
    ("page_count", .int record.pageCount),
    ("approved_page_count", .int record.approvedPageCount),
    ("started_at", .string record.startedAt),
    ("process_create_time", (record.processCreateTime.map Json.float).getD .null),
    ("schema_version", .int record.schemaVersion)]

def InstanceRecord.dump (record : InstanceRecord) : Json PyFloat := .object record.members

def instanceRecordFilename (record : InstanceRecord) : Text :=
  let host := Text.stripBy (· = '_') (Text.collapse GraphStore.isKeyChar '_' record.host)
  (if host = [] then ("host" : Text) else host) ++ '-' :: Text.ofInt record.port ++
    '-' :: Text.ofInt record.pid ++ (".json" : Text)

/-! ## Reading -/

/-- `int_value(value, default=default)`, absent where the overflow is raised. -/
def intOr (default : Int) : Conversion Int → Option Int
  | .value number => some number
  | .refused => some default
  | .overflow => none

/-- `str(value)` of a JSON value that is no string. -/
class Strs where
  str : Json PyFloat → Text

@[reducible]
def plainStrs : Strs := ⟨fun _ => []⟩

/-- `str(value or default)` -/
def textOr [Strs] (default : Text) (value : Json PyFloat) : Text :=
  if truthy value then
    match value with
    | .string text => text
    | other => Strs.str other
  else default

section Reading

variable [Numbers]

/-- `float_value(value)`, absent where the overflow is raised. -/
def floatValue : Json PyFloat → Option (Option PyFloat)
  | .null => some none
  | value =>
      match toFloat value with
      | .value number => some (some number)
      | .refused => some none
      | .overflow => none

variable [Strs]

/-- The record of a payload, if it has one; absent where an overflow is raised. -/
def instanceRecordFromPayload (payload : Json PyFloat) : Option (Option InstanceRecord) :=
  match intOf (payload.get "pid"), intOf (payload.get "port") with
  | .overflow, _ => none
  | .refused, _ => some none
  | .value _, .overflow => none
  | .value _, .refused => some none
  | .value pid, .value port =>
      if pid ≤ 0 || port ≤ 0 || port > 65535 then some none
      else do
        let pageCount ← intOr 0 (intOf (payload.get "page_count"))
        let approvedPageCount ← intOr 0 (intOf (payload.get "approved_page_count"))
        let processCreateTime ← floatValue (payload.get "process_create_time")
        let schemaVersion ← intOr 2 (intOf (payload.get "schema_version"))
        let host := textOr [] (payload.get "host")
        some (some
          { pid, host, port, pageCount, approvedPageCount, processCreateTime, schemaVersion
            root := textOr [] (payload.get "root")
            url := textOr (instanceUrl host port) (payload.get "url")
            sourceId := textOr [] (payload.get "source_id")
            bundleId := textOr [] (payload.get "bundle_id")
            adapter := textOr [] (payload.get "adapter")
            implementation := textOr [] (payload.get "implementation")
            startedAt := textOr [] (payload.get "started_at") })

variable [Json.FloatRepr PyFloat]

/-- The record in a file, if it holds one; absent where an overflow is raised. -/
def readRecord (text : Text) : Option (Option InstanceRecord) :=
  match Json.loads text with
  | some (.object members) => instanceRecordFromPayload (.object members)
  | _ => some none

end Reading

/-- What `register_instance` leaves in a file. -/
def InstanceRecord.fileText [Json.FloatRepr PyFloat] (record : InstanceRecord) : Text :=
  Json.dumps (.indented 2) record.dump ++ ['\n']

/-! ## The round trip of a record -/

/-- The record that is read from the file of a record: one with a process and a port, and with
an URL in any case. -/
def InstanceRecord.filed? (record : InstanceRecord) : Option InstanceRecord :=
  if record.pid ≤ 0 || record.port ≤ 0 || record.port > 65535 then none
  else some
    { record with
      url := if record.url = [] then instanceUrl record.host record.port else record.url }

theorem dump_distinct (record : InstanceRecord) : record.dump.Distinct := by
  have names : (record.members.map Prod.fst).Nodup := by
    have listed : [("pid" : Text), "host", "port", "root", "url", "source_id", "bundle_id",
        "adapter", "implementation", "page_count", "approved_page_count", "started_at",
        "process_create_time", "schema_version"].Nodup := by decide
    exact listed
  have time : (((record.processCreateTime.map Json.float).getD .null : Json PyFloat)).Distinct := by
    cases record.processCreateTime <;> trivial
  refine ⟨names, ?_⟩
  simp only [InstanceRecord.members, Json.DistinctMembers, Json.DistinctMember]
  exact ⟨trivial, trivial, trivial, trivial, trivial, trivial, trivial, trivial, trivial, trivial,
    trivial, trivial, time, trivial, trivial⟩

/-- A member of the payload, looked up after the members were sorted. -/
theorem get_dump {record : InstanceRecord} {name : Text} {value : Json PyFloat}
    (member : (name, value) ∈ record.members) :
    record.dump.sortKeys.get name = value.sortKeys := by
  have distinct := dump_distinct record
  rw [Json.get_sortKeys distinct]
  have found := Keyed.get?_of_mem distinct.1 member
  simp only [InstanceRecord.dump, Json.get, found, Option.getD_some]

theorem textOr_string [Strs] (default text : Text) :
    textOr default (.string text) = if text = [] then default else text := by
  by_cases empty : text = [] <;> simp [textOr, truthy, empty]

theorem textOr_nil_string [Strs] (text : Text) : textOr [] (.string text) = text := by
  by_cases empty : text = [] <;> simp [textOr, truthy, empty]

section RoundTrip

variable [Numbers]

theorem floatValue_dumped (time : Option PyFloat) :
    floatValue ((time.map Json.float).getD .null).sortKeys = some time := by
  cases time <;> rfl

variable [Strs]

theorem instanceRecordFromPayload_dump (record : InstanceRecord) :
    instanceRecordFromPayload record.dump.sortKeys = some record.filed? := by
  have pid := @get_dump record "pid" (.int record.pid) (by simp [InstanceRecord.members])
  have port := @get_dump record "port" (.int record.port) (by simp [InstanceRecord.members])
  have host := @get_dump record "host" (.string record.host) (by simp [InstanceRecord.members])
  have root := @get_dump record "root" (.string record.root) (by simp [InstanceRecord.members])
  have url := @get_dump record "url" (.string record.url) (by simp [InstanceRecord.members])
  have sourceId := @get_dump record "source_id" (.string record.sourceId)
    (by simp [InstanceRecord.members])
  have bundleId := @get_dump record "bundle_id" (.string record.bundleId)
    (by simp [InstanceRecord.members])
  have adapter := @get_dump record "adapter" (.string record.adapter)
    (by simp [InstanceRecord.members])
  have implementation := @get_dump record "implementation" (.string record.implementation)
    (by simp [InstanceRecord.members])
  have pageCount := @get_dump record "page_count" (.int record.pageCount)
    (by simp [InstanceRecord.members])
  have approvedPageCount := @get_dump record "approved_page_count" (.int record.approvedPageCount)
    (by simp [InstanceRecord.members])
  have startedAt := @get_dump record "started_at" (.string record.startedAt)
    (by simp [InstanceRecord.members])
  have schemaVersion := @get_dump record "schema_version" (.int record.schemaVersion)
    (by simp [InstanceRecord.members])
  have createTime := @get_dump record "process_create_time"
    ((record.processCreateTime.map Json.float).getD .null) (by simp [InstanceRecord.members])
  simp only [Json.sortKeys] at pid port host root url sourceId bundleId adapter implementation
  simp only [Json.sortKeys] at pageCount approvedPageCount startedAt schemaVersion
  have givenUrl := textOr_string (instanceUrl record.host record.port) record.url
  unfold instanceRecordFromPayload
  simp only [pid, port, host, root, url, sourceId, bundleId, adapter, implementation, pageCount,
    approvedPageCount, startedAt, createTime, schemaVersion, intOf, intOr,
    textOr_nil_string, givenUrl, floatValue_dumped, Option.bind_eq_bind, Option.bind_some]
  unfold InstanceRecord.filed?
  split_ifs <;> rfl

variable [Json.FloatRepr PyFloat]

theorem readRecord_fileText (record : InstanceRecord) :
    readRecord record.fileText = some record.filed? := by
  have loaded : Json.loads record.fileText = some record.dump.sortKeys :=
    Json.loads_dumps_append _ (dump_distinct record) rfl
  have shape : record.dump.sortKeys =
      .object ((Json.sortMembers record.members).insertionSort Json.nameLe) := rfl
  rw [readRecord, loaded, shape]
  exact instanceRecordFromPayload_dump record

end RoundTrip

/-! ## The registry directory -/

structure Registry where
  files : List (Text × Text)
  distinct : (files.map Prod.fst).Nodup

namespace Registry

def empty : Registry := ⟨[], List.nodup_nil⟩

def write (registry : Registry) (name text : Text) : Registry where
  files := Keyed.set registry.files name text
  distinct := Keyed.nodup_map_fst_set registry.distinct name text

def remove (registry : Registry) (gone : Text → Bool) : Registry where
  files := registry.files.filter fun file => !gone file.1
  distinct := registry.distinct.sublist (List.filter_sublist.map Prod.fst)

def file? (registry : Registry) (name : Text) : Option Text := Keyed.get? registry.files name

theorem file?_write (registry : Registry) (name text wanted : Text) :
    (registry.write name text).file? wanted =
      if name = wanted then some text else registry.file? wanted :=
  Keyed.get?_set registry.files name wanted text

theorem file?_remove (registry : Registry) (gone : Text → Bool) (wanted : Text) :
    (registry.remove gone).file? wanted = if gone wanted then none else registry.file? wanted := by
  simp only [file?, remove, Keyed.get?, List.find?_filter]
  split_ifs with leaves
  · rw [Option.map_eq_none_iff, List.find?_eq_none]
    intro file _
    by_cases same : file.1 = wanted
    · simp [same, leaves]
    · simp [same]
  · congr 2
    funext file
    by_cases same : file.1 = wanted
    · simp [same, leaves]
    · simp [same]

theorem mem_files_iff {registry : Registry} {file : Text × Text} :
    file ∈ registry.files ↔ registry.file? file.1 = some file.2 :=
  ⟨fun among => Keyed.get?_of_mem registry.distinct among, fun found => Keyed.mem_of_get? found⟩

end Registry

structure StoredInstanceRecord where
  path : Text
  record : InstanceRecord

def isRecordName (name : Text) : Bool := Text.endsWith name ".json"

def nameLe (first second : Text × Text) : Bool := decide (first.1 ≤ second.1)

section Operations

variable [Numbers] [Strs] [Json.FloatRepr PyFloat]

/-- The records of some files, absent where one of them raises. -/
def readFiles : List (Text × Text) → Option (List StoredInstanceRecord)
  | [] => some []
  | file :: rest =>
      match readRecord file.2 with
      | none => none
      | some none => readFiles rest
      | some (some record) => (readFiles rest).map (⟨file.1, record⟩ :: ·)

def readInstanceRecords (registry : Registry) : Option (List StoredInstanceRecord) :=
  readFiles (sortBy nameLe (registry.files.filter fun file => isRecordName file.1))

/-- Whether a new record takes the place of another one. -/
def InstanceRecord.replaces (record other : InstanceRecord) : Bool :=
  other.pid = record.pid || (other.host = record.host && other.port = record.port)

/-- The directory behind `cleanup_replaced_records`. -/
def cleanupReplacedRecords (record : InstanceRecord) (registry : Registry) : Option Registry :=
  (readInstanceRecords registry).map fun stored =>
    registry.remove fun name => stored.any fun other =>
      other.path = name && record.replaces other.record

omit [Numbers] [Strs] [Json.FloatRepr PyFloat] in
/-- `path.with_suffix(".json.tmp")` -/
def temporaryFilename (record : InstanceRecord) : Text := instanceRecordFilename record ++ ".tmp"

/-- The record is written under its temporary name and moved from there. -/
def registerInstance (record : InstanceRecord) (registry : Registry) : Option Registry :=
  (cleanupReplacedRecords record registry).map fun cleaned =>
    ((cleaned.write (temporaryFilename record) record.fileText).remove
      (· = temporaryFilename record)).write (instanceRecordFilename record) record.fileText

omit [Numbers] [Strs] [Json.FloatRepr PyFloat] in
def unregisterInstance (path : Text) (registry : Registry) : Registry :=
  registry.remove (· = path)

/-- What a listing with `prune_stale` does to the directory. -/
def pruneStale (stale : InstanceRecord → Bool) (registry : Registry) : Option Registry :=
  (readInstanceRecords registry).map fun stored =>
    (stored.filter fun other => stale other.record).foldl
      (fun registry other => unregisterInstance other.path registry) registry

/-- What is done to the directory. -/
inductive RegistryEvent where
  | register (record : InstanceRecord)
  | unregister (path : Text)
  | prune (stale : InstanceRecord → Bool)

def registryStep (registry : Registry) : RegistryEvent → Option Registry
  | .register record => registerInstance record registry
  | .unregister path => some (unregisterInstance path registry)
  | .prune stale => pruneStale stale registry

end Operations

end LlmWikiServe.Instances
