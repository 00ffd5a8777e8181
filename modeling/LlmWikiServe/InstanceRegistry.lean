import LlmWikiServe.Foundation.Transition
import LlmWikiServe.InstanceRecords
import LlmWikiServe.RecordRoundTrip

/-!
# The registry over whole runs

The directory refines a map from file names to records: a registration takes the records of its
process and of its endpoint out and files its own one.  So no two records of a run are about one
process or one endpoint, and each stands in the file that is named after it.
-/

namespace LlmWikiServe.Instances

open ManagedContext Transition

section Refinement

variable [Numbers] [Strs] [Json.FloatRepr PyFloat]

/-! ## The records of a directory -/

namespace Registry

def record? (registry : Registry) (name : Text) : Option InstanceRecord :=
  if isRecordName name then ((registry.file? name).bind readRecord).join else none

/-- No file makes the reader raise. -/
def Readable (registry : Registry) : Prop :=
  ∀ name, isRecordName name = true → ∀ text ∈ registry.file? name, (readRecord text).isSome = true

theorem record?_remove (registry : Registry) (gone : Text → Bool) (name : Text) :
    (registry.remove gone).record? name = if gone name then none else registry.record? name := by
  simp only [record?, file?_remove]
  split_ifs <;> rfl

theorem record?_write (registry : Registry) (written text name : Text) :
    (registry.write written text).record? name =
      if name = written then (if isRecordName name then (readRecord text).join else none)
      else registry.record? name := by
  simp only [record?, file?_write, eq_comm (a := written)]
  split_ifs <;> rfl

theorem Readable.remove {registry : Registry} (readable : registry.Readable)
    (gone : Text → Bool) : (registry.remove gone).Readable := by
  intro name named text found
  rw [Option.mem_def, file?_remove] at found
  split_ifs at found
  exact readable name named text found

theorem Readable.write {registry : Registry} (readable : registry.Readable) (written : Text)
    {text : Text} (read : (readRecord text).isSome = true) :
    (registry.write written text).Readable := by
  intro name named other found
  rw [Option.mem_def, file?_write] at found
  split_ifs at found
  · rw [← Option.some.inj found]
    exact read
  · exact readable name named other found

end Registry

/-! ## Reading the directory -/

theorem readFiles_isSome_iff {files : List (Text × Text)} :
    (readFiles files).isSome = true ↔ ∀ file ∈ files, (readRecord file.2).isSome = true := by
  induction files with
  | nil => simp [readFiles]
  | cons file files inductionHypothesis =>
      rw [List.forall_mem_cons, ← inductionHypothesis, readFiles]
      cases readRecord file.2 with
      | none => simp
      | some found => cases found <;> simp

theorem mem_readFiles {files : List (Text × Text)} {stored : List StoredInstanceRecord}
    (read : readFiles files = some stored) {other : StoredInstanceRecord} :
    other ∈ stored ↔
      ∃ text, (other.path, text) ∈ files ∧ readRecord text = some (some other.record) := by
  induction files generalizing stored with
  | nil =>
      obtain rfl := Option.some.inj read
      simp
  | cons file files inductionHypothesis =>
      obtain ⟨name, text⟩ := file
      rw [readFiles] at read
      cases found : readRecord text with
      | none => simp [found] at read
      | some record? =>
          cases record? with
          | none =>
              simp only [found] at read
              rw [inductionHypothesis read]
              constructor
              · rintro ⟨other, among, same⟩
                exact ⟨other, List.mem_cons_of_mem _ among, same⟩
              · rintro ⟨other, among, same⟩
                rcases List.mem_cons.mp among with here | later
                · obtain ⟨-, rfl⟩ := Prod.mk.inj here
                  rw [found] at same
                  cases same
                · exact ⟨other, later, same⟩
          | some record =>
              simp only [found] at read
              obtain ⟨rest, readRest, rfl⟩ := Option.map_eq_some_iff.mp read
              rw [List.mem_cons, inductionHypothesis readRest]
              constructor
              · rintro (rfl | ⟨other, among, same⟩)
                · exact ⟨text, List.mem_cons_self, found⟩
                · exact ⟨other, List.mem_cons_of_mem _ among, same⟩
              · rintro ⟨text', among, same⟩
                rcases List.mem_cons.mp among with here | later
                · obtain ⟨path, rfl⟩ := Prod.mk.inj here
                  rw [found] at same
                  left
                  obtain ⟨otherPath, otherRecord⟩ := other
                  simp only at path
                  rw [path, Option.some.inj (Option.some.inj same)]
                · exact .inr ⟨text', later, same⟩

omit [Numbers] [Strs] [Json.FloatRepr PyFloat] in
theorem mem_recordFiles {registry : Registry} {file : Text × Text} :
    file ∈ sortBy nameLe (registry.files.filter fun file => isRecordName file.1) ↔
      registry.file? file.1 = some file.2 ∧ isRecordName file.1 = true := by
  rw [(sortBy_perm _ _).mem_iff, List.mem_filter, Registry.mem_files_iff]

theorem readInstanceRecords_isSome_iff {registry : Registry} :
    (readInstanceRecords registry).isSome = true ↔ registry.Readable := by
  rw [readInstanceRecords, readFiles_isSome_iff]
  constructor
  · intro all name named text found
    exact all (name, text) (mem_recordFiles.mpr ⟨found, named⟩)
  · intro readable file among
    obtain ⟨found, named⟩ := mem_recordFiles.mp among
    exact readable file.1 named file.2 found

theorem mem_readInstanceRecords {registry : Registry} {stored : List StoredInstanceRecord}
    (read : readInstanceRecords registry = some stored) {other : StoredInstanceRecord} :
    other ∈ stored ↔ registry.record? other.path = some other.record := by
  rw [mem_readFiles read, Registry.record?]
  constructor
  · rintro ⟨text, among, found⟩
    obtain ⟨stands, named⟩ := mem_recordFiles.mp among
    rw [if_pos named, stands, Option.bind_some, found]
    rfl
  · intro found
    split_ifs at found with named
    obtain ⟨text, stands, read⟩ := Option.bind_eq_some_iff.mp (Option.join_eq_some_iff.mp found)
    exact ⟨text, mem_recordFiles.mpr ⟨stands, named⟩, read⟩

/-! ## The map that the directory refines -/

/-- The records by the names of their files. -/
abbrev InstanceMap : Type := Text → Option InstanceRecord

omit [Numbers] [Strs] [Json.FloatRepr PyFloat] in
def RegistryEvent.apply (map : InstanceMap) : RegistryEvent → Text → Option InstanceRecord
  | .register record, name =>
      if name = instanceRecordFilename record then record.filed?
      else (map name).filter fun other => !record.replaces other
  | .unregister path, name => if name = path then none else map name
  | .prune stale, name => (map name).filter fun other => !stale other

omit [Numbers] [Strs] [Json.FloatRepr PyFloat] in
theorem isRecordName_filename (record : InstanceRecord) :
    isRecordName (instanceRecordFilename record) = true := by
  rw [isRecordName, Text.endsWith, List.isSuffixOf_iff_suffix]
  exact List.suffix_append _ _

/-- Taking out the records that a test meets. -/
theorem record?_removed {registry : Registry} {stored : List StoredInstanceRecord}
    (read : readInstanceRecords registry = some stored) (gone : InstanceRecord → Bool)
    (name : Text) :
    (registry.remove fun name => stored.any fun other =>
      other.path = name && gone other.record).record? name =
        (registry.record? name).filter fun other => !gone other := by
  rw [Registry.record?_remove]
  cases found : registry.record? name with
  | none => simp
  | some record =>
      have among : (⟨name, record⟩ : StoredInstanceRecord) ∈ stored :=
        (mem_readInstanceRecords read).mpr found
      by_cases leaves : gone record = true
      · rw [if_pos (List.any_eq_true.mpr ⟨_, among, by simpa using leaves⟩)]
        rw [Option.filter_some, leaves]
        rfl
      · rw [if_neg]
        · rw [Option.filter_some, Bool.eq_false_of_not_eq_true leaves]
          rfl
        · intro some_
          obtain ⟨other, otherIn, met⟩ := List.any_eq_true.mp some_
          simp only [Bool.and_eq_true, decide_eq_true_eq] at met
          have stands := (mem_readInstanceRecords read).mp otherIn
          rw [met.1, found] at stands
          rw [← Option.some.inj stands] at met
          exact leaves met.2

omit [Numbers] [Strs] [Json.FloatRepr PyFloat] in
theorem foldl_unregister (others : List StoredInstanceRecord) (registry : Registry) :
    (others.foldl (fun registry other => unregisterInstance other.path registry) registry).files =
      (registry.remove fun name => others.any fun other => other.path = name).files := by
  induction others generalizing registry with
  | nil => simp [Registry.remove]
  | cons other others inductionHypothesis =>
      rw [List.foldl_cons, inductionHypothesis]
      simp only [unregisterInstance, Registry.remove, List.filter_filter, List.any_cons]
      apply List.filter_congr
      intro file _
      rw [Bool.not_or, Bool.and_comm]
      simp [eq_comm]

theorem pruneStale_eq (stale : InstanceRecord → Bool) (registry : Registry) :
    pruneStale stale registry = (readInstanceRecords registry).map fun stored =>
      registry.remove fun name => stored.any fun other =>
        other.path = name && stale other.record := by
  rw [pruneStale]
  apply congrArg (Option.map · (readInstanceRecords registry))
  funext stored
  have same := foldl_unregister (stored.filter fun other => stale other.record) registry
  cases left : (stored.filter fun other => stale other.record).foldl
      (fun registry other => unregisterInstance other.path registry) registry with
  | mk files distinct =>
      rw [left] at same
      simp only [Registry.remove] at same ⊢
      simp only [same, Registry.mk.injEq]
      apply List.filter_congr
      intro file _
      simp [List.any_filter, Bool.and_comm]

omit [Numbers] [Strs] [Json.FloatRepr PyFloat] in
theorem isRecordName_temporary (record : InstanceRecord) :
    isRecordName (temporaryFilename record) = false := by
  rw [Bool.eq_false_iff, isRecordName, Text.endsWith, ne_eq, List.isSuffixOf_iff_suffix]
  rintro ⟨front, same⟩
  have last := congrArg List.getLast? same
  simp [temporaryFilename, List.getLast?_append] at last

/-- A temporary file has come and gone: the records stay. -/
theorem record?_temporary (registry : Registry) (record : InstanceRecord) (text : Text) :
    ((registry.write (temporaryFilename record) text).remove
      (· = temporaryFilename record)).record? = registry.record? := by
  funext name
  rw [Registry.record?_remove, Registry.record?_write]
  by_cases same : name = temporaryFilename record
  · simp [same, Registry.record?, isRecordName_temporary]
  · simp [same]

theorem registryStep_spec {registry : Registry} (readable : registry.Readable)
    (event : RegistryEvent) :
    ∃ after, registryStep registry event = some after ∧ after.Readable ∧
      after.record? = event.apply registry.record? := by
  obtain ⟨stored, read⟩ := Option.isSome_iff_exists.mp
    (readInstanceRecords_isSome_iff.mpr readable)
  cases event with
  | register record =>
      refine ⟨_, by rw [registryStep, registerInstance, cleanupReplacedRecords, read]; rfl,
        ((((readable.remove _).write _ (by rw [readRecord_fileText]; rfl)).remove _).write _
          (by rw [readRecord_fileText]; rfl)), ?_⟩
      funext name
      rw [Registry.record?_write, record?_temporary, record?_removed read record.replaces,
        readRecord_fileText, RegistryEvent.apply]
      split_ifs with same named
      · rfl
      · rw [same] at named
        exact absurd (isRecordName_filename record) named
      · rfl
  | unregister path =>
      refine ⟨_, rfl, readable.remove _, ?_⟩
      funext name
      rw [unregisterInstance, Registry.record?_remove, RegistryEvent.apply]
      simp
  | prune stale =>
      refine ⟨_, by rw [registryStep, pruneStale_eq, read]; rfl, readable.remove _, ?_⟩
      funext name
      exact record?_removed read stale name

/-! ## Runs -/

def instancesAfter (map : InstanceMap) (events : List RegistryEvent) : InstanceMap :=
  events.foldl (fun map event => event.apply map) map

theorem exec_spec {registry : Registry} (readable : registry.Readable)
    (events : List RegistryEvent) :
    ∃ after, exec registryStep registry events = some after ∧ after.Readable ∧
      after.record? = instancesAfter registry.record? events := by
  induction events generalizing registry with
  | nil => exact ⟨registry, rfl, readable, rfl⟩
  | cons event events inductionHypothesis =>
      obtain ⟨next, stepped, nextReadable, records⟩ := registryStep_spec readable event
      obtain ⟨after, run, afterReadable, later⟩ := inductionHypothesis nextReadable
      refine ⟨after, ?_, afterReadable, ?_⟩
      · rw [exec, stepped, Option.bind_some, run]
      · rw [later, records]
        rfl

theorem readable_empty : Registry.empty.Readable := by
  intro name _ text found
  cases found

/-! ## Files that hold no record -/

/-- The names that an event writes or removes without looking at what is there. -/
def RegistryEvent.claims : RegistryEvent → List Text
  | .register record => [instanceRecordFilename record, temporaryFilename record]
  | .unregister path => [path]
  | .prune _ => []

theorem file?_registryStep {registry after : Registry} {event : RegistryEvent}
    (stepped : registryStep registry event = some after) {name : Text}
    (noRecord : registry.record? name = none) (unclaimed : name ∉ event.claims) :
    after.file? name = registry.file? name := by
  have kept : ∀ {stored : List StoredInstanceRecord},
      readInstanceRecords registry = some stored → ∀ gone : InstanceRecord → Bool,
        (registry.remove fun name => stored.any fun other =>
          other.path = name && gone other.record).file? name = registry.file? name := by
    intro stored read gone
    rw [Registry.file?_remove, if_neg]
    intro some_
    obtain ⟨other, among, met⟩ := List.any_eq_true.mp some_
    simp only [Bool.and_eq_true, decide_eq_true_eq] at met
    have stands := (mem_readInstanceRecords read).mp among
    rw [met.1, noRecord] at stands
    cases stands
  cases event with
  | register record =>
      simp only [RegistryEvent.claims, List.mem_cons, List.not_mem_nil, or_false, not_or] at unclaimed
      simp only [registryStep, registerInstance, cleanupReplacedRecords, Option.map_map,
        Option.map_eq_some_iff, Function.comp_apply] at stepped
      obtain ⟨stored, read, rfl⟩ := stepped
      rw [Registry.file?_write, if_neg (Ne.symm unclaimed.1), Registry.file?_remove,
        if_neg (by simpa using unclaimed.2), Registry.file?_write, if_neg (Ne.symm unclaimed.2)]
      exact kept read record.replaces
  | unregister path =>
      obtain rfl := Option.some.inj stepped
      rw [unregisterInstance, Registry.file?_remove, if_neg]
      simpa [RegistryEvent.claims] using unclaimed
  | prune stale =>
      rw [registryStep, pruneStale_eq] at stepped
      obtain ⟨stored, read, rfl⟩ := Option.map_eq_some_iff.mp stepped
      exact kept read stale

theorem file?_exec {registry after : Registry} (readable : registry.Readable)
    {events : List RegistryEvent} (run : exec registryStep registry events = some after)
    {name : Text} (noRecord : registry.record? name = none)
    (unclaimed : ∀ event ∈ events, name ∉ event.claims) :
    after.file? name = registry.file? name := by
  induction events generalizing registry with
  | nil =>
      obtain rfl := Option.some.inj run
      rfl
  | cons event events inductionHypothesis =>
      obtain ⟨first, later⟩ := List.forall_mem_cons.mp unclaimed
      obtain ⟨next, stepped, nextReadable, records⟩ := registryStep_spec readable event
      rw [exec, stepped, Option.bind_some] at run
      have same := file?_registryStep stepped noRecord first
      have stillNone : next.record? name = none := by
        rw [Registry.record?] at noRecord ⊢
        rw [same]
        exact noRecord
      rw [inductionHypothesis nextReadable run stillNone later, same]

/-- Registrations, removals and prunings never fail on a directory that can be read, and what is
listed afterwards is the map that they make of its records.  A file that holds no record stays as
it is unless it has a name that a registration writes to or a removal takes away. -/
theorem registry_refines {registry : Registry} (readable : registry.Readable)
    (events : List RegistryEvent) :
    ∃ after stored, exec registryStep registry events = some after ∧
      readInstanceRecords after = some stored ∧
      (∀ other : StoredInstanceRecord, other ∈ stored ↔
        instancesAfter registry.record? events other.path = some other.record) ∧
      ∀ name, registry.record? name = none → (∀ event ∈ events, name ∉ event.claims) →
        after.file? name = registry.file? name := by
  obtain ⟨after, run, afterReadable, records⟩ := exec_spec readable events
  obtain ⟨stored, read⟩ := Option.isSome_iff_exists.mp
    (readInstanceRecords_isSome_iff.mpr afterReadable)
  refine ⟨after, stored, run, read, fun other => ?_, fun name noRecord unclaimed =>
    file?_exec readable run noRecord unclaimed⟩
  rw [mem_readInstanceRecords read, records]

end Refinement

section Sample

attribute [local instance] sampleFloats sampleNumbers plainStrs

def servedRecord : InstanceRecord where
  pid := 4242
  host := "127.0.0.1"
  port := 8765
  root := "/srv/wiki"
  url := "http://127.0.0.1:8765"
  sourceId := "wiki"
  bundleId := "wiki@1"
  adapter := "generic-markdown"
  implementation := "llmwiki-serve"
  pageCount := 3
  approvedPageCount := 2
  startedAt := "2026-01-01T00:00:00Z"

/-- A server on the same endpoint that was not removed. -/
def deadRecord : InstanceRecord := { servedRecord with pid := 17, sourceId := "old" }

def otherRecord : InstanceRecord := { servedRecord with pid := 99, port := 8766 }

theorem distinct_serving : (["127.0.0.1-8765-17.json", "127.0.0.1-8766-99.json", "broken.json"].map
    String.toList).Nodup := by decide

/-- The records of two servers and a file that holds none. -/
def servingRegistry : Registry where
  files :=
    [("127.0.0.1-8765-17.json", deadRecord.fileText), ("127.0.0.1-8766-99.json", otherRecord.fileText),
      ("broken.json", "\x7b")]
  distinct := distinct_serving

theorem readRecord_broken : readRecord "\x7b" = some none := by decide

theorem readable_serving : servingRegistry.Readable := by
  intro name _ text found
  have among : (name, text) ∈ servingRegistry.files := Registry.mem_files_iff.mpr found
  simp only [servingRegistry, List.mem_cons, Prod.mk.injEq, List.not_mem_nil, or_false] at among
  rcases among with ⟨-, rfl⟩ | ⟨-, rfl⟩ | ⟨-, rfl⟩
  · rw [readRecord_fileText]
    rfl
  · rw [readRecord_fileText]
    rfl
  · rw [readRecord_broken]
    rfl

/-- The server starts, the other one is stopped, and stale records are pruned. -/
def servingEvents : List RegistryEvent :=
  [.register servedRecord, .unregister "127.0.0.1-8766-99.json", .prune fun record => record.pid = 17]

theorem file?_serving {name : Text} {text : Text} (found : servingRegistry.file? name = some text) :
    name = "127.0.0.1-8765-17.json" ∧ text = deadRecord.fileText ∨
      name = "127.0.0.1-8766-99.json" ∧ text = otherRecord.fileText ∨
      name = "broken.json" ∧ text = ['\x7b'] := by
  have among : (name, text) ∈ servingRegistry.files := Registry.mem_files_iff.mpr found
  simpa [servingRegistry] using among

theorem instancesAfter_serving (name : Text) :
    instancesAfter servingRegistry.record? servingEvents name =
      if name = "127.0.0.1-8765-4242.json" then some servedRecord else none := by
  have fileName : instanceRecordFilename servedRecord = "127.0.0.1-8765-4242.json" := by
    decide
  simp only [instancesAfter, servingEvents, List.foldl_cons, List.foldl_nil, RegistryEvent.apply,
    fileName]
  by_cases served : name = "127.0.0.1-8765-4242.json"
  · subst served
    decide
  · rw [if_neg served, if_neg served]
    by_cases stopped : name = "127.0.0.1-8766-99.json"
    · rw [if_pos stopped]
      rfl
    rw [if_neg stopped]
    cases found : servingRegistry.file? name with
    | none => simp [Registry.record?, found]
    | some text =>
        rcases file?_serving found with ⟨rfl, rfl⟩ | ⟨rfl, rfl⟩ | ⟨rfl, rfl⟩
        · have read : servingRegistry.record? "127.0.0.1-8765-17.json" = some deadRecord := by
            rw [Registry.record?, found, if_pos (by decide), Option.bind_some, readRecord_fileText]
            rfl
          rw [read]
          rfl
        · exact absurd rfl stopped
        · rw [show servingRegistry.record? "broken.json" = none by decide]
          rfl

theorem registry_refines_served :
    ∃ after stored, exec registryStep servingRegistry servingEvents = some after ∧
      readInstanceRecords after = some stored ∧
      (∀ other, other ∈ stored ↔ other = ⟨"127.0.0.1-8765-4242.json", servedRecord⟩) ∧
      after.file? "broken.json" = some ['\x7b'] := by
  obtain ⟨after, stored, run, read, listed, files⟩ := registry_refines readable_serving servingEvents
  refine ⟨after, stored, run, read, fun other => ?_, ?_⟩
  · rw [listed, instancesAfter_serving]
    generalize ("127.0.0.1-8765-4242.json" : Text) = file
    generalize servedRecord = record
    obtain ⟨path, stored⟩ := other
    by_cases here : path = file
    · simp [here, eq_comm]
    · simp [here]
  · exact (files "broken.json" (by decide) (by decide)).trans rfl

end Sample

section Distinct

variable [Numbers] [Strs] [Json.FloatRepr PyFloat]

/-- One record for a process, one for an endpoint, and each in its own file. -/
structure Filed (map : InstanceMap) : Prop where
  named : ∀ name, ∀ record ∈ map name, name = instanceRecordFilename record
  alone : ∀ name other, ∀ record ∈ map name, ∀ record' ∈ map other,
    record.replaces record' = true → name = other

omit [Numbers] [Strs] [Json.FloatRepr PyFloat] in
theorem Filed.sub {map map' : InstanceMap} (filed : Filed map)
    (sub : ∀ name, ∀ record ∈ map' name, record ∈ map name) : Filed map' where
  named name record among := filed.named name record (sub name record among)
  alone name other record among record' among' :=
    filed.alone name other record (sub name record among) record' (sub other record' among')

omit [Numbers] [Strs] [Json.FloatRepr PyFloat] in
theorem filed?_keeps {record filed : InstanceRecord} (read : record.filed? = some filed) :
    filed.pid = record.pid ∧ filed.host = record.host ∧ filed.port = record.port := by
  unfold InstanceRecord.filed? at read
  split_ifs at read
  all_goals
    obtain rfl := Option.some.inj read
    exact ⟨rfl, rfl, rfl⟩

omit [Numbers] [Strs] [Json.FloatRepr PyFloat] in
theorem Filed.apply {map : InstanceMap} (filed : Filed map) (event : RegistryEvent) :
    Filed (event.apply map) := by
  cases event with
  | register record =>
      -- What is left of the map is not replaced by the new record, nor the other way round.
      have apart : ∀ name, name ≠ instanceRecordFilename record →
          ∀ other ∈ (RegistryEvent.register record).apply map name,
            other ∈ map name ∧ record.replaces other = false := by
        intro name away other among
        rw [Option.mem_def, RegistryEvent.apply, if_neg away, Option.filter_eq_some_iff] at among
        exact ⟨among.1, by simpa using among.2⟩
      have new : ∀ other ∈ (RegistryEvent.register record).apply map
          (instanceRecordFilename record),
          other.pid = record.pid ∧ other.host = record.host ∧ other.port = record.port := by
        intro other among
        rw [Option.mem_def, RegistryEvent.apply, if_pos rfl] at among
        exact filed?_keeps among
      constructor
      · intro name other among
        by_cases same : name = instanceRecordFilename record
        · subst same
          obtain ⟨pid, host, port⟩ := new other among
          simp only [instanceRecordFilename, pid, host, port]
        · exact filed.named name other (apart name same other among).1
      · intro name name' other among other' among' replaced
        by_cases same : name = instanceRecordFilename record
        · by_cases same' : name' = instanceRecordFilename record
          · rw [same, same']
          · subst same
            obtain ⟨pid, host, port⟩ := new other among
            have stays := (apart name' same' other' among').2
            simp only [InstanceRecord.replaces, pid, host, port] at replaced stays
            rw [stays] at replaced
            cases replaced
        · by_cases same' : name' = instanceRecordFilename record
          · subst same'
            obtain ⟨pid, host, port⟩ := new other' among'
            have stays := (apart name same other among).2
            simp only [InstanceRecord.replaces, pid, host, port] at replaced stays
            simp only [eq_comm (a := other.pid), eq_comm (a := other.host),
              eq_comm (a := other.port)] at stays
            rw [stays] at replaced
            cases replaced
          · exact filed.alone name name' other (apart name same other among).1 other'
              (apart name' same' other' among').1 replaced
  | unregister path =>
      apply filed.sub
      intro name record among
      rw [Option.mem_def, RegistryEvent.apply] at among
      split_ifs at among
      exact among
  | prune stale =>
      apply filed.sub
      intro name record among
      rw [Option.mem_def, RegistryEvent.apply, Option.filter_eq_some_iff] at among
      exact among.1

omit [Numbers] [Strs] [Json.FloatRepr PyFloat] in
theorem filed_instancesAfter {map : InstanceMap} (filed : Filed map)
    (events : List RegistryEvent) : Filed (instancesAfter map events) := by
  induction events generalizing map with
  | nil => exact filed
  | cons event events inductionHypothesis => exact inductionHypothesis (filed.apply event)

theorem filed_empty : Filed Registry.empty.record? := by
  have nothing : ∀ name, Registry.empty.record? name = none := by
    intro name
    rw [Registry.record?]
    split_ifs <;> rfl
  constructor
  · intro name record among
    rw [nothing] at among
    cases among
  · intro name other record among
    rw [nothing] at among
    cases among

theorem nodup_paths {registry : Registry} {stored : List StoredInstanceRecord}
    (read : readInstanceRecords registry = some stored) :
    (stored.map StoredInstanceRecord.path).Nodup := by
  have sub : ∀ {files : List (Text × Text)} {stored : List StoredInstanceRecord},
      readFiles files = some stored →
        (stored.map StoredInstanceRecord.path).Sublist (files.map Prod.fst) := by
    intro files
    induction files with
    | nil =>
        intro stored read
        obtain rfl := Option.some.inj read
        exact .slnil
    | cons file files inductionHypothesis =>
        intro stored read
        rw [readFiles] at read
        cases found : readRecord file.2 with
        | none => simp [found] at read
        | some record? =>
            cases record? with
            | none =>
                simp only [found] at read
                exact (inductionHypothesis read).cons _
            | some record =>
                simp only [found] at read
                obtain ⟨rest, readRest, rfl⟩ := Option.map_eq_some_iff.mp read
                exact (inductionHypothesis readRest).cons_cons _
  have sorted := (sortBy_perm nameLe (registry.files.filter fun file => isRecordName file.1)).map
    Prod.fst
  exact (sorted.nodup_iff.mpr (registry.distinct.sublist (List.filter_sublist.map Prod.fst))).sublist
    (sub read)

/-- After any run from an empty directory, the records at different places of the list are about
different processes and different endpoints, and each stands in the file named after it. -/
theorem registry_distinct (events : List RegistryEvent) :
    ∃ after stored, exec registryStep Registry.empty events = some after ∧
      readInstanceRecords after = some stored ∧
      (∀ other ∈ stored, other.path = instanceRecordFilename other.record) ∧
      (stored.map fun other => other.record.pid).Nodup ∧
      (stored.map fun other => (other.record.host, other.record.port)).Nodup := by
  obtain ⟨after, run, readable, records⟩ := exec_spec readable_empty events
  obtain ⟨stored, read⟩ := Option.isSome_iff_exists.mp
    (readInstanceRecords_isSome_iff.mpr readable)
  have listed (other : StoredInstanceRecord) : other ∈ stored ↔
      instancesAfter Registry.empty.record? events other.path = some other.record := by
    rw [mem_readInstanceRecords read, records]
  have filed := filed_instancesAfter filed_empty events
  have paths := nodup_paths read
  have apart : ∀ first ∈ stored, ∀ second ∈ stored,
      first.record.replaces second.record = true → first = second := by
    intro first firstIn second secondIn replaced
    have samePath := filed.alone _ _ _ ((listed first).mp firstIn) _ ((listed second).mp secondIn)
      replaced
    exact List.inj_on_of_nodup_map paths firstIn secondIn samePath
  refine ⟨after, stored, run, read, ?_, ?_, ?_⟩
  · intro other among
    exact filed.named _ _ ((listed other).mp among)
  · refine List.Nodup.map_on ?_ (List.Nodup.of_map _ paths)
    intro first firstIn second secondIn same
    exact apart first firstIn second secondIn (by simp [InstanceRecord.replaces, same])
  · refine List.Nodup.map_on ?_ (List.Nodup.of_map _ paths)
    intro first firstIn second secondIn same
    obtain ⟨host, port⟩ := Prod.mk.inj same
    exact apart first firstIn second secondIn (by simp [InstanceRecord.replaces, host, port])

end Distinct

end LlmWikiServe.Instances
