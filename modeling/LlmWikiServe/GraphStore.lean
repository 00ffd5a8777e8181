import LlmWikiServe.Foundation.Json
import LlmWikiServe.Signature

/-!
# The SQLite graph store

Records of nodes and edges in three tables, under keys whose components are made safe one by
one.  A read checks the counts and the digest that were stored with the record.
-/

namespace LlmWikiServe.GraphStore

/-! ## Keys -/

structure GraphStoreKey where
  namespace_ : Text
  sourceId : Text
  bundleId : Text
  projectionSignature : Text
  visibilityScope : Text := "approved"
  schemaVersion : Text := "graph-store-v1"
  deriving DecidableEq

structure StoredKey where
  schemaVersion : Text
  namespace_ : Text
  sourceId : Text
  bundleId : Text
  projectionSignature : Text
  visibilityScope : Text
  deriving DecidableEq

/-- `[A-Za-z0-9._-]` -/
def isKeyChar (char : Char) : Bool :=
  char.isAlphanum || char = '.' || char = '_' || char = '-'

/-- A component with unsafe characters replaced. -/
def sanitized (value : Text) : Text :=
  let candidate := Text.stripBy (fun char => char = '.' || char = '_' || char = '-')
    (Text.collapse isKeyChar '_' value)
  if candidate = [] then "empty" else candidate

section Keys

variable [Hashing]

/-- The digest that tells replaced components apart. -/
def partDigest (value : Text) : Text := (Hashing.sha256 value).take 12

def safeKeyPart (value : Text) : Text :=
  let candidate := sanitized value
  if candidate = value then candidate else candidate.take 80 ++ '-' :: partDigest value

def sqliteKeyValues (key : GraphStoreKey) : StoredKey where
  schemaVersion := safeKeyPart key.schemaVersion
  namespace_ := safeKeyPart key.namespace_
  sourceId := safeKeyPart key.sourceId
  bundleId := safeKeyPart key.bundleId
  projectionSignature := safeKeyPart key.projectionSignature
  visibilityScope := safeKeyPart key.visibilityScope

end Keys

/-! ## Records -/

/-- A graph node whose metadata is a JSON object. -/
structure Node (F : Type) where
  id : Text
  label : Text
  kind : Text
  path : Text := []
  metadata : List (Text × Json F) := []

structure Edge (F : Type) where
  source : Text
  target : Text
  relation : Text
  metadata : List (Text × Json F) := []

/-- A dictionary has no key twice. -/
structure GraphRecord (F : Type) where
  key : GraphStoreKey
  nodes : List (Node F)
  edges : List (Edge F)
  nodesDistinct : ∀ node ∈ nodes, (Json.object node.metadata).Distinct
  edgesDistinct : ∀ edge ∈ edges, (Json.object edge.metadata).Distinct

section Items

variable {F : Type}

def Node.dump (node : Node F) : Json F :=
  .object
    [("id", .string node.id), ("label", .string node.label), ("kind", .string node.kind),
      ("path", .string node.path), ("metadata", .object node.metadata)]

def Edge.dump (edge : Edge F) : Json F :=
  .object
    [("source", .string edge.source), ("target", .string edge.target),
      ("relation", .string edge.relation), ("metadata", .object edge.metadata)]

/-- Equal, metadata up to the order of its members. -/
def Node.Alike (first second : Node F) : Prop := first.dump.Alike second.dump

def Edge.Alike (first second : Edge F) : Prop := first.dump.Alike second.dump

/-- The nodes and edges of two records, in order. -/
def ContentAlike (first second : List (Node F) × List (Edge F)) : Prop :=
  List.Forall₂ Node.Alike first.1 second.1 ∧ List.Forall₂ Edge.Alike first.2 second.2

/-- What the payload digest covers. -/
def payload (nodes : List (Node F)) (edges : List (Edge F)) : Json F :=
  .object [("nodes", .array (nodes.map Node.dump)), ("edges", .array (edges.map Edge.dump))]

variable [Hashing] [Json.FloatRepr F]

def graphRecordDigest (nodes : List (Node F)) (edges : List (Edge F)) : Text :=
  ("sha256:" : Text) ++ Hashing.sha256 (Json.dumps .compact (payload nodes edges))

end Items

/-! ## Tables -/

structure SnapshotRow where
  key : StoredKey
  nodeCount : Nat
  edgeCount : Nat
  payloadDigest : Text

/-- A row of the nodes or of the edges: its key, its place in the record and its columns. -/
structure ItemRow (Columns : Type) where
  key : StoredKey
  position : Nat
  columns : Columns

structure NodeColumns where
  nodeId : Text
  label : Text
  kind : Text
  path : Text
  metadataJson : Text

structure EdgeColumns where
  source : Text
  target : Text
  relation : Text
  metadataJson : Text

structure Database where
  snapshots : List SnapshotRow
  nodes : List (ItemRow NodeColumns)
  edges : List (ItemRow EdgeColumns)

def Database.empty : Database := ⟨[], [], []⟩

/-- Keep the rows with a condition on their keys, in every table. -/
def Database.filterKeys (db : Database) (keep : StoredKey → Bool) : Database where
  snapshots := db.snapshots.filter fun row => keep row.key
  nodes := db.nodes.filter fun row => keep row.key
  edges := db.edges.filter fun row => keep row.key

def Database.append (first second : Database) : Database where
  snapshots := first.snapshots ++ second.snapshots
  nodes := first.nodes ++ second.nodes
  edges := first.edges ++ second.edges

def itemRows {Columns : Type} (key : StoredKey) : Nat → List Columns → List (ItemRow Columns)
  | _, [] => []
  | position, columns :: rest => ⟨key, position, columns⟩ :: itemRows key (position + 1) rest

/-- `WHERE` the key columns match, `ORDER BY position`. -/
def selectItems {Columns : Type} (key : StoredKey) (rows : List (ItemRow Columns)) :
    List Columns :=
  ((rows.filter fun row => row.key = key).insertionSort fun first second =>
    first.position ≤ second.position).map ItemRow.columns

section Store

variable {F : Type} [Hashing] [Json.FloatRepr F]

omit [Hashing] in
def Node.columns (node : Node F) : NodeColumns where
  nodeId := node.id
  label := node.label
  kind := node.kind
  path := node.path
  metadataJson := Json.dumps .spaced (.object node.metadata)

omit [Hashing] in
def Edge.columns (edge : Edge F) : EdgeColumns where
  source := edge.source
  target := edge.target
  relation := edge.relation
  metadataJson := Json.dumps .spaced (.object edge.metadata)

omit [Hashing] in
/-- Metadata is read back as a dictionary, or validation fails. -/
def loadsObject (text : Text) : Option (List (Text × Json F)) :=
  match Json.loads text with
  | some (.object members) => some members
  | _ => none

omit [Hashing] in
def NodeColumns.node (columns : NodeColumns) : Option (Node F) :=
  (loadsObject columns.metadataJson).map fun metadata =>
    ⟨columns.nodeId, columns.label, columns.kind, columns.path, metadata⟩

omit [Hashing] in
def EdgeColumns.edge (columns : EdgeColumns) : Option (Edge F) :=
  (loadsObject columns.metadataJson).map fun metadata =>
    ⟨columns.source, columns.target, columns.relation, metadata⟩

def recordRows (record : GraphRecord F) : Database where
  snapshots :=
    [⟨sqliteKeyValues record.key, record.nodes.length, record.edges.length,
      graphRecordDigest record.nodes record.edges⟩]
  nodes := itemRows (sqliteKeyValues record.key) 0 (record.nodes.map Node.columns)
  edges := itemRows (sqliteKeyValues record.key) 0 (record.edges.map Edge.columns)

/-- The reads of a `get`, each of its own state of the database. -/
def getFrom (snapshotDb nodeDb edgeDb : Database) (key : GraphStoreKey) :
    Option (List (Node F) × List (Edge F)) := do
  let storedKey := sqliteKeyValues key
  let snapshot ← snapshotDb.snapshots.find? fun row => row.key = storedKey
  let nodeRows := selectItems storedKey nodeDb.nodes
  let edgeRows := selectItems storedKey edgeDb.edges
  if snapshot.nodeCount ≠ nodeRows.length ∨ snapshot.edgeCount ≠ edgeRows.length then none
  else
    let nodes ← nodeRows.mapM NodeColumns.node
    let edges ← edgeRows.mapM EdgeColumns.edge
    if snapshot.payloadDigest = graphRecordDigest nodes edges then some (nodes, edges) else none

def get (db : Database) (key : GraphStoreKey) : Option (List (Node F) × List (Edge F)) :=
  getFrom db db db key

/-- One transaction: the record of the key is deleted, the new one inserted. -/
def put (record : GraphRecord F) (db : Database) : Database :=
  (db.filterKeys fun key => key ≠ sqliteKeyValues record.key).append (recordRows record)

omit [Json.FloatRepr F] in
def invalidateSource (namespace_ sourceId : Text) (db : Database) : Database :=
  db.filterKeys fun key =>
    ¬ (key.namespace_ = safeKeyPart namespace_ ∧ key.sourceId = safeKeyPart sourceId)

inductive Operation (F : Type) where
  | put (record : GraphRecord F)
  | invalidateSource (namespace_ sourceId : Text)

def Operation.apply (db : Database) : Operation F → Database
  | .put record => GraphStore.put record db
  | .invalidateSource namespace_ sourceId => GraphStore.invalidateSource namespace_ sourceId db

def run (db : Database) (operations : List (Operation F)) : Database :=
  operations.foldl Operation.apply db

/-! ## The map the store stands for -/

omit [Hashing] [Json.FloatRepr F] in
def Operation.applyMap (map : GraphStoreKey → Option (GraphRecord F)) :
    Operation F → GraphStoreKey → Option (GraphRecord F)
  | .put record, key => if record.key = key then some record else map key
  | .invalidateSource namespace_ sourceId, key =>
      if key.namespace_ = namespace_ ∧ key.sourceId = sourceId then none else map key

omit [Hashing] [Json.FloatRepr F] in
def runMap (operations : List (Operation F)) : GraphStoreKey → Option (GraphRecord F) :=
  operations.foldl Operation.applyMap fun _ => none

/-! ## The rows of a key -/

def Database.rowsAt (db : Database) (storedKey : StoredKey) : Database :=
  db.filterKeys fun key => key = storedKey

omit [Hashing] [Json.FloatRepr F] in
theorem filterKeys_append (first second : Database) (keep : StoredKey → Bool) :
    (first.append second).filterKeys keep =
      (first.filterKeys keep).append (second.filterKeys keep) := by
  simp [Database.filterKeys, Database.append]

omit [Hashing] [Json.FloatRepr F] in
theorem filterKeys_filterKeys (db : Database) (keep other : StoredKey → Bool) :
    (db.filterKeys keep).filterKeys other =
      db.filterKeys fun key => other key && keep key := by
  simp [Database.filterKeys, List.filter_filter]

omit [Hashing] [Json.FloatRepr F] in
theorem itemRows_key {Columns : Type} {key : StoredKey} {position : Nat} {items : List Columns}
    {row : ItemRow Columns} (among : row ∈ itemRows key position items) :
    row.key = key ∧ position ≤ row.position := by
  induction items generalizing position with
  | nil => simp [itemRows] at among
  | cons columns rest inductionHypothesis =>
      rcases List.mem_cons.mp among with rfl | later
      · exact ⟨rfl, Nat.le_refl _⟩
      · obtain ⟨sameKey, after⟩ := inductionHypothesis later
        exact ⟨sameKey, by omega⟩

theorem recordRows_filterKeys (record : GraphRecord F) (keep : StoredKey → Bool) :
    (recordRows record).filterKeys keep =
      if keep (sqliteKeyValues record.key) then recordRows record else .empty := by
  have items : ∀ {Columns : Type} (columns : List Columns),
      (itemRows (sqliteKeyValues record.key) 0 columns).filter (fun row => keep row.key) =
        if keep (sqliteKeyValues record.key) then
          itemRows (sqliteKeyValues record.key) 0 columns
        else [] := by
    intro Columns columns
    split
    next kept =>
      apply List.filter_eq_self.mpr
      intro row among
      rw [(itemRows_key among).1, kept]
    next dropped =>
      apply List.filter_eq_nil_iff.mpr
      intro row among
      rw [(itemRows_key among).1]
      exact dropped
  unfold Database.filterKeys
  rw [recordRows, items, items]
  split <;> simp_all [Database.empty]

omit [Hashing] [Json.FloatRepr F] in
theorem append_empty (db : Database) : db.append .empty = db := by
  simp [Database.append, Database.empty]

theorem put_rowsAt (record : GraphRecord F) (db : Database) (storedKey : StoredKey) :
    (put record db).rowsAt storedKey =
      if sqliteKeyValues record.key = storedKey then recordRows record
      else db.rowsAt storedKey := by
  unfold put Database.rowsAt
  rw [filterKeys_append, filterKeys_filterKeys, recordRows_filterKeys]
  by_cases same : sqliteKeyValues record.key = storedKey
  · subst same
    have dropped : ∀ key : StoredKey, (decide (key = sqliteKeyValues record.key) &&
        decide (key ≠ sqliteKeyValues record.key)) = false := by
      intro key
      by_cases here : key = sqliteKeyValues record.key <;> simp [here]
    simp only [dropped, decide_true, if_true]
    simp [Database.filterKeys, Database.append]
  · simp only [same, decide_false, Bool.false_eq_true, if_false, append_empty]
    congr 1
    funext key
    by_cases here : key = storedKey
    · subst here
      simp [Ne.symm same]
    · simp [here]

omit [Json.FloatRepr F] in
/-- An invalidation deletes the rows of its namespace and source and keeps the others. -/
theorem invalidateSource_rowsAt (namespace_ sourceId : Text) (db : Database)
    (storedKey : StoredKey) :
    (invalidateSource namespace_ sourceId db).rowsAt storedKey =
      if storedKey.namespace_ = safeKeyPart namespace_ ∧
          storedKey.sourceId = safeKeyPart sourceId then .empty
      else db.rowsAt storedKey := by
  unfold invalidateSource Database.rowsAt
  rw [filterKeys_filterKeys]
  split
  next matching =>
    have dropped : ∀ key : StoredKey, (decide (key = storedKey) &&
        decide ¬ (key.namespace_ = safeKeyPart namespace_ ∧
          key.sourceId = safeKeyPart sourceId)) = false := by
      intro key
      by_cases here : key = storedKey
      · subst here
        simp [matching.1, matching.2]
      · simp [here]
    simp only [dropped]
    simp [Database.filterKeys, Database.empty]
  next other =>
    congr 1
    funext key
    by_cases here : key = storedKey
    · subst here
      simp only [decide_true, Bool.true_and, other, not_false_eq_true]
    · simp [here]

/-! ## Reading a record back -/

omit [Hashing] [Json.FloatRepr F] in
/-- Metadata as it is read back. -/
def sortedMembers (members : List (Text × Json F)) : List (Text × Json F) :=
  (Json.sortMembers members).insertionSort Json.nameLe

omit [Hashing] [Json.FloatRepr F] in
def Node.sorted (node : Node F) : Node F := { node with metadata := sortedMembers node.metadata }

omit [Hashing] [Json.FloatRepr F] in
def Edge.sorted (edge : Edge F) : Edge F := { edge with metadata := sortedMembers edge.metadata }

omit [Hashing] [Json.FloatRepr F] in
theorem sortKeys_sortedMembers (members : List (Text × Json F)) :
    (Json.object (sortedMembers members)).sortKeys = (Json.object members).sortKeys := by
  have sorted : Json.object (sortedMembers members) = (Json.object members).sortKeys := by
    simp only [sortedMembers, Json.sortKeys]
  rw [sorted, Json.sortKeys_sortKeys]

omit [Hashing] [Json.FloatRepr F] in
theorem Node.sorted_alike (node : Node F) : node.sorted.Alike node := by
  simp only [Node.Alike, Json.Alike, Node.dump, Node.sorted, Json.sortKeys, Json.sortMembers,
    Json.sortMember]
  have metadata := sortKeys_sortedMembers node.metadata
  simp only [Json.sortKeys] at metadata
  rw [metadata]

omit [Hashing] [Json.FloatRepr F] in
theorem Edge.sorted_alike (edge : Edge F) : edge.sorted.Alike edge := by
  simp only [Edge.Alike, Json.Alike, Edge.dump, Edge.sorted, Json.sortKeys, Json.sortMembers,
    Json.sortMember]
  have metadata := sortKeys_sortedMembers edge.metadata
  simp only [Json.sortKeys] at metadata
  rw [metadata]

omit [Hashing] in
theorem loadsObject_dumps {members : List (Text × Json F)}
    (distinct : (Json.object members).Distinct) :
    loadsObject (Json.dumps .spaced (.object members)) = some (sortedMembers members) := by
  have loaded := Json.loads_dumps .spaced distinct
  simp only [Json.sortKeys] at loaded
  simp only [loadsObject, loaded, sortedMembers]

omit [Hashing] in
theorem Node.columns_node {node : Node F} (distinct : (Json.object node.metadata).Distinct) :
    node.columns.node = some node.sorted := by
  simp only [NodeColumns.node, Node.columns, loadsObject_dumps distinct, Option.map_some,
    Node.sorted]

omit [Hashing] in
theorem Edge.columns_edge {edge : Edge F} (distinct : (Json.object edge.metadata).Distinct) :
    edge.columns.edge = some edge.sorted := by
  simp only [EdgeColumns.edge, Edge.columns, loadsObject_dumps distinct, Option.map_some,
    Edge.sorted]

omit [Hashing] [Json.FloatRepr F] in
theorem mapM_map_eq {Item Columns Decoded : Type} {encode : Item → Columns}
    {decode : Columns → Option Decoded} {expected : Item → Decoded} {items : List Item}
    (decodes : ∀ item ∈ items, decode (encode item) = some (expected item)) :
    (items.map encode).mapM decode = some (items.map expected) := by
  induction items with
  | nil => rfl
  | cons item items inductionHypothesis =>
      have later := inductionHypothesis fun other among => decodes other (List.mem_cons_of_mem _ among)
      simp [decodes item List.mem_cons_self, later]

omit [Hashing] [Json.FloatRepr F] in
/-- The items of a record come in the order they were stored. -/
theorem selectItems_of_filter {Columns : Type} {key : StoredKey} {rows : List (ItemRow Columns)}
    {items : List Columns} (stored : (rows.filter fun row => row.key = key) = itemRows key 0 items) :
    selectItems key rows = items := by
  have ordered : ∀ position (items : List Columns),
      (itemRows key position items).Pairwise fun first second =>
        first.position ≤ second.position := by
    intro position items
    induction items generalizing position with
    | nil => exact .nil
    | cons columns rest inductionHypothesis =>
        refine .cons ?_ (inductionHypothesis (position + 1))
        intro row among
        exact (Nat.le_succ position).trans (itemRows_key among).2
  have columns : ∀ position (items : List Columns),
      (itemRows key position items).map ItemRow.columns = items := by
    intro position items
    induction items generalizing position with
    | nil => rfl
    | cons columns rest inductionHypothesis => simp [itemRows, inductionHypothesis]
  rw [selectItems, stored, List.Pairwise.insertionSort_eq (ordered 0 items), columns]

omit [Hashing] [Json.FloatRepr F] in
theorem payload_sorted (nodes : List (Node F)) (edges : List (Edge F)) :
    (payload (nodes.map Node.sorted) (edges.map Edge.sorted)).Alike (payload nodes edges) := by
  have nodesAlike : Json.sortItems ((nodes.map Node.sorted).map Node.dump) =
      Json.sortItems (nodes.map Node.dump) := by
    induction nodes with
    | nil => rfl
    | cons node nodes inductionHypothesis =>
        have first : node.sorted.dump.sortKeys = node.dump.sortKeys := node.sorted_alike
        simp only [List.map_cons, Json.sortItems, first, inductionHypothesis]
  have edgesAlike : Json.sortItems ((edges.map Edge.sorted).map Edge.dump) =
      Json.sortItems (edges.map Edge.dump) := by
    induction edges with
    | nil => rfl
    | cons edge edges inductionHypothesis =>
        have first : edge.sorted.dump.sortKeys = edge.dump.sortKeys := edge.sorted_alike
        simp only [List.map_cons, Json.sortItems, first, inductionHypothesis]
  simp only [Json.Alike, payload, Json.sortKeys, Json.sortMembers, Json.sortMember, nodesAlike,
    edgesAlike]

theorem graphRecordDigest_sorted (nodes : List (Node F)) (edges : List (Edge F)) :
    graphRecordDigest (nodes.map Node.sorted) (edges.map Edge.sorted) =
      graphRecordDigest nodes edges := by
  have alike := payload_sorted nodes edges
  unfold Json.Alike at alike
  unfold graphRecordDigest Json.dumps
  rw [alike]

/-- The content of a record as it is read back. -/
def GraphRecord.sorted (record : GraphRecord F) : List (Node F) × List (Edge F) :=
  (record.nodes.map Node.sorted, record.edges.map Edge.sorted)

omit [Hashing] [Json.FloatRepr F] in
theorem forall₂_map_left {Item : Type} {relation : Item → Item → Prop} {change : Item → Item}
    (related : ∀ item, relation (change item) item) (items : List Item) :
    List.Forall₂ relation (items.map change) items := by
  induction items with
  | nil => exact .nil
  | cons item items inductionHypothesis => exact .cons (related item) inductionHypothesis

omit [Hashing] [Json.FloatRepr F] in
theorem GraphRecord.sorted_alike (record : GraphRecord F) :
    ContentAlike record.sorted (record.nodes, record.edges) :=
  ⟨forall₂_map_left Node.sorted_alike record.nodes, forall₂_map_left Edge.sorted_alike record.edges⟩

/-- What a read sees of the tables that hold records under its key. -/
theorem getFrom_records {snapshotDb nodeDb edgeDb : Database} {key : GraphStoreKey}
    {snapshot nodes edges : GraphRecord F}
    (snapshotRows : (snapshotDb.rowsAt (sqliteKeyValues key)).snapshots =
      (recordRows snapshot).snapshots)
    (nodeRows : (nodeDb.rowsAt (sqliteKeyValues key)).nodes =
      itemRows (sqliteKeyValues key) 0 (nodes.nodes.map Node.columns))
    (edgeRows : (edgeDb.rowsAt (sqliteKeyValues key)).edges =
      itemRows (sqliteKeyValues key) 0 (edges.edges.map Edge.columns)) :
    getFrom snapshotDb nodeDb edgeDb key =
      if snapshot.nodes.length = nodes.nodes.length ∧
          snapshot.edges.length = edges.edges.length ∧
          graphRecordDigest snapshot.nodes snapshot.edges =
            graphRecordDigest nodes.nodes edges.edges then
        some (nodes.sorted.1, edges.sorted.2)
      else none := by
  have found : snapshotDb.snapshots.find? (fun row => row.key = sqliteKeyValues key) =
      some ⟨sqliteKeyValues snapshot.key, snapshot.nodes.length, snapshot.edges.length,
        graphRecordDigest snapshot.nodes snapshot.edges⟩ := by
    rw [← List.head?_filter]
    exact (congrArg List.head? snapshotRows).trans rfl
  have readNodes : (nodes.nodes.map Node.columns).mapM NodeColumns.node =
      some (nodes.nodes.map Node.sorted) :=
    mapM_map_eq fun node among => node.columns_node (nodes.nodesDistinct node among)
  have readEdges : (edges.edges.map Edge.columns).mapM EdgeColumns.edge =
      some (edges.edges.map Edge.sorted) :=
    mapM_map_eq fun edge among => edge.columns_edge (edges.edgesDistinct edge among)
  unfold getFrom
  simp only [found, selectItems_of_filter nodeRows, selectItems_of_filter edgeRows,
    List.length_map, readNodes, readEdges, Option.bind_eq_bind, Option.bind_some,
    graphRecordDigest_sorted]
  by_cases counts : snapshot.nodes.length = nodes.nodes.length ∧
      snapshot.edges.length = edges.edges.length
  · simp [counts.1, counts.2, GraphRecord.sorted]
  · rw [if_pos (by rwa [← not_and_or]), if_neg fun all => counts ⟨all.1, all.2.1⟩]

/-! ## Stored keys and keys -/

omit [Json.FloatRepr F] in
/-- The first value is stored as it is, and is what the second one is replaced by. -/
def Mimics (first second : Text) : Prop :=
  sanitized first = first ∧ sanitized second ≠ second ∧ first = safeKeyPart second

omit [Json.FloatRepr F] in
def SamePart (first second : Text) : Prop :=
  first = second ∨ Mimics first second ∨ Mimics second first

omit [Json.FloatRepr F] in
/-- Components are stored alike only when they are equal or one mimics the other. -/
theorem samePart_of_stored (hex : ∀ text, (Hashing.sha256 text).length = 64)
    {first second : Text} (apart : partDigest first = partDigest second → first = second)
    (same : safeKeyPart first = safeKeyPart second) : SamePart first second := by
  by_cases firstSafe : sanitized first = first
  · have stored : safeKeyPart first = first := by simp [safeKeyPart, firstSafe]
    by_cases secondSafe : sanitized second = second
    · have otherStored : safeKeyPart second = second := by simp [safeKeyPart, secondSafe]
      exact Or.inl (stored.symm.trans (same.trans otherStored))
    · exact Or.inr (Or.inl ⟨firstSafe, secondSafe, stored.symm.trans same⟩)
  · by_cases secondSafe : sanitized second = second
    · have otherStored : safeKeyPart second = second := by simp [safeKeyPart, secondSafe]
      exact Or.inr (Or.inr ⟨secondSafe, firstSafe, otherStored.symm.trans same.symm⟩)
    · have digestLength : ∀ text, (partDigest text).length = 12 := by
        intro text
        simp [partDigest, hex text]
      simp only [safeKeyPart, firstSafe, secondSafe, if_false] at same
      have suffixes := List.append_inj' same (by simp [digestLength])
      exact Or.inl (apart (List.cons.inj suffixes.2).2)

omit [Hashing] [Json.FloatRepr F] in
def GraphStoreKey.parts (key : GraphStoreKey) : List Text :=
  [key.schemaVersion, key.namespace_, key.sourceId, key.bundleId, key.projectionSignature,
    key.visibilityScope]

omit [Json.FloatRepr F] in
/-- Every component equals the other key's, or one of the two mimics the other. -/
structure GraphStoreKey.SameParts (first second : GraphStoreKey) : Prop where
  schemaVersion : SamePart first.schemaVersion second.schemaVersion
  namespace_ : SamePart first.namespace_ second.namespace_
  sourceId : SamePart first.sourceId second.sourceId
  bundleId : SamePart first.bundleId second.bundleId
  projectionSignature : SamePart first.projectionSignature second.projectionSignature
  visibilityScope : SamePart first.visibilityScope second.visibilityScope

omit [Hashing] [Json.FloatRepr F] in
def Operation.parts : Operation F → List Text
  | .put record => record.key.parts
  | .invalidateSource namespace_ sourceId => [namespace_, sourceId]

omit [Json.FloatRepr F] in
/-- The operation does not reach the key through a component that mimics another. -/
def Operation.Unmistaken (key : GraphStoreKey) : Operation F → Prop
  | .put record => record.key.SameParts key → record.key = key
  | .invalidateSource namespace_ sourceId =>
      SamePart namespace_ key.namespace_ → SamePart sourceId key.sourceId →
        namespace_ = key.namespace_ ∧ sourceId = key.sourceId

omit [Json.FloatRepr F] in
/-- Distinct values have distinct digests. -/
def DigestsApart (parts : List Text) : Prop :=
  ∀ first ∈ parts, ∀ second ∈ parts, partDigest first = partDigest second → first = second

omit [Json.FloatRepr F] in
theorem sameParts_of_stored (hex : ∀ text, (Hashing.sha256 text).length = 64)
    {first second : GraphStoreKey} (apart : DigestsApart (first.parts ++ second.parts))
    (same : sqliteKeyValues first = sqliteKeyValues second) : first.SameParts second := by
  have parts : ∀ left ∈ first.parts, ∀ right ∈ second.parts,
      safeKeyPart left = safeKeyPart right → SamePart left right :=
    fun left leftIn right rightIn => samePart_of_stored hex
      (apart left (List.mem_append_left _ leftIn) right (List.mem_append_right _ rightIn))
  simp only [sqliteKeyValues, StoredKey.mk.injEq] at same
  obtain ⟨schemaVersion, namespace_, sourceId, bundleId, projectionSignature, visibilityScope⟩ :=
    same
  refine ⟨parts _ ?_ _ ?_ schemaVersion, parts _ ?_ _ ?_ namespace_, parts _ ?_ _ ?_ sourceId,
    parts _ ?_ _ ?_ bundleId, parts _ ?_ _ ?_ projectionSignature,
    parts _ ?_ _ ?_ visibilityScope⟩ <;> simp [GraphStoreKey.parts]

/-! ## The store refines the map -/

def Represents (db : Database) (key : GraphStoreKey) (stored : Option (GraphRecord F)) : Prop :=
  db.rowsAt (sqliteKeyValues key) =
    match stored with
    | none => .empty
    | some record => recordRows record

theorem apply_represents (hex : ∀ text, (Hashing.sha256 text).length = 64) {db : Database}
    {map : GraphStoreKey → Option (GraphRecord F)} {key : GraphStoreKey}
    {operation : Operation F} (apart : DigestsApart (operation.parts ++ key.parts))
    (unmistaken : operation.Unmistaken key) (represents : Represents db key (map key)) :
    Represents (operation.apply db) key (operation.applyMap map key) := by
  cases operation with
  | put record =>
      simp only [Operation.apply, Operation.applyMap, Represents, put_rowsAt]
      by_cases stored : sqliteKeyValues record.key = sqliteKeyValues key
      · have same := unmistaken (sameParts_of_stored hex apart stored)
        simp [same]
      · have other : record.key ≠ key := fun same => stored (congrArg sqliteKeyValues same)
        simp only [stored, other, if_false]
        exact represents
  | invalidateSource namespace_ sourceId =>
      simp only [Operation.apply, Operation.applyMap, Represents, invalidateSource_rowsAt]
      have part : ∀ value ∈ [namespace_, sourceId], ∀ component ∈ key.parts,
          safeKeyPart component = safeKeyPart value → SamePart value component :=
        fun value valueIn component componentIn same => samePart_of_stored hex
          (apart value (List.mem_append_left _ valueIn) component
            (List.mem_append_right _ componentIn)) same.symm
      by_cases stored : (sqliteKeyValues key).namespace_ = safeKeyPart namespace_ ∧
          (sqliteKeyValues key).sourceId = safeKeyPart sourceId
      · obtain ⟨sameNamespace, sameSource⟩ := unmistaken
          (part namespace_ (by simp) key.namespace_ (by simp [GraphStoreKey.parts]) stored.1)
          (part sourceId (by simp) key.sourceId (by simp [GraphStoreKey.parts]) stored.2)
        simp [stored, sameNamespace, sameSource]
      · have other : ¬ (key.namespace_ = namespace_ ∧ key.sourceId = sourceId) := by
          rintro ⟨rfl, rfl⟩
          exact stored ⟨rfl, rfl⟩
        simp only [stored, other, if_false]
        exact represents

theorem run_represents (hex : ∀ text, (Hashing.sha256 text).length = 64)
    (operations : List (Operation F)) (key : GraphStoreKey)
    (apart : DigestsApart (operations.flatMap Operation.parts ++ key.parts))
    (unmistaken : ∀ operation ∈ operations, operation.Unmistaken key) :
    Represents (run .empty operations) key (runMap operations key) := by
  induction operations using List.reverseRecOn with
  | nil => rfl
  | append_singleton earlier last inductionHypothesis =>
      simp only [run, runMap, List.foldl_append, List.foldl_cons, List.foldl_nil]
      apply apply_represents hex
      · intro first firstIn second secondIn
        apply apart first _ second _ <;> simp_all only [List.mem_append, List.flatMap_append,
          List.flatMap_cons, List.flatMap_nil, List.append_nil]
        · tauto
        · tauto
      · exact unmistaken last (by simp)
      · apply inductionHypothesis
        · intro first firstIn second secondIn
          apply apart first _ second _ <;> simp_all only [List.mem_append, List.flatMap_append,
            List.flatMap_cons, List.flatMap_nil, List.append_nil]
          · tauto
          · tauto
        · exact fun operation among => unmistaken operation (List.mem_append_left _ among)

theorem get_of_represents {db : Database} {key : GraphStoreKey} {stored : Option (GraphRecord F)}
    (represents : Represents db key stored)
    (atKey : ∀ record, stored = some record → record.key = key) :
    get db key = stored.map GraphRecord.sorted := by
  cases stored with
  | none =>
      have nothing : db.snapshots.find? (fun row => row.key = sqliteKeyValues key) = none := by
        rw [← List.head?_filter]
        exact congrArg (fun rows => rows.snapshots.head?) represents
      simp [get, getFrom, nothing]
  | some record =>
      obtain rfl := atKey record rfl
      rw [get, getFrom_records (congrArg Database.snapshots represents)
        (congrArg Database.nodes represents) (congrArg Database.edges represents)]
      simp [GraphRecord.sorted]

omit [Hashing] [Json.FloatRepr F] in
theorem runMap_key {operations : List (Operation F)} {key : GraphStoreKey}
    {record : GraphRecord F} (stored : runMap operations key = some record) : record.key = key := by
  induction operations using List.reverseRecOn with
  | nil => simp [runMap] at stored
  | append_singleton earlier last inductionHypothesis =>
      simp only [runMap, List.foldl_append, List.foldl_cons, List.foldl_nil] at stored
      cases last with
      | put other =>
          simp only [Operation.applyMap] at stored
          split at stored
          next same => exact Option.some.inj stored ▸ same
          next => exact inductionHypothesis stored
      | invalidateSource namespace_ sourceId =>
          simp only [Operation.applyMap] at stored
          split at stored
          · cases stored
          · exact inductionHypothesis stored

/-- In every run whose operations are not mistaken for the key, reading it gives the nodes and
edges of the last record put under it since the last invalidation of its source. -/
theorem get_refines (hex : ∀ text, (Hashing.sha256 text).length = 64)
    (operations : List (Operation F)) (key : GraphStoreKey)
    (apart : DigestsApart (operations.flatMap Operation.parts ++ key.parts))
    (unmistaken : ∀ operation ∈ operations, operation.Unmistaken key) :
    Option.Rel ContentAlike (get (run .empty operations) key)
      ((runMap operations key).map fun record => (record.nodes, record.edges)) := by
  rw [get_of_represents (run_represents hex operations key apart unmistaken)
    fun record => runMap_key]
  cases runMap operations key with
  | none => exact .none
  | some record => exact .some record.sorted_alike

/-! ## Reads of different states -/

def HoldsPut (storedKey : StoredKey) (operations : List (Operation F)) (db : Database) : Prop :=
  db.rowsAt storedKey = .empty ∨
    ∃ record, Operation.put record ∈ operations ∧ sqliteKeyValues record.key = storedKey ∧
      db.rowsAt storedKey = recordRows record

theorem run_holdsPut {storedKey : StoredKey} {earlier : List (Operation F)} {db : Database}
    (holds : HoldsPut storedKey earlier db) (operations : List (Operation F)) :
    HoldsPut storedKey (earlier ++ operations) (run db operations) := by
  induction operations generalizing earlier db with
  | nil => simpa [run] using holds
  | cons operation rest inductionHypothesis =>
      have after : HoldsPut storedKey (earlier ++ [operation]) (operation.apply db) := by
        have kept : HoldsPut storedKey (earlier ++ [operation]) db := by
          rcases holds with nothing | ⟨record, among, stored, rows⟩
          · exact Or.inl nothing
          · exact Or.inr ⟨record, List.mem_append_left _ among, stored, rows⟩
        cases operation with
        | put record =>
            unfold HoldsPut Operation.apply
            rw [put_rowsAt]
            split
            next same => exact Or.inr ⟨record, by simp, same, rfl⟩
            next => exact kept
        | invalidateSource namespace_ sourceId =>
            unfold HoldsPut Operation.apply
            rw [invalidateSource_rowsAt]
            split
            next => exact Or.inl rfl
            next => exact kept
      have later := inductionHypothesis after
      simpa [run] using later

theorem HoldsPut.items {storedKey : StoredKey} {operations : List (Operation F)} {db : Database}
    (holds : HoldsPut storedKey operations db) :
    ∃ record : GraphRecord F,
      (db.rowsAt storedKey).nodes = itemRows storedKey 0 (record.nodes.map Node.columns) ∧
        (db.rowsAt storedKey).edges = itemRows storedKey 0 (record.edges.map Edge.columns) := by
  rcases holds with nothing | ⟨record, -, rfl, rows⟩
  · refine ⟨⟨⟨[], [], [], [], [], []⟩, [], [], nofun, nofun⟩, ?_, ?_⟩ <;> rw [nothing] <;> rfl
  · exact ⟨record, by rw [rows]; rfl, by rw [rows]; rfl⟩

omit [Hashing] [Json.FloatRepr F] in
theorem forall₂_of_sortItems {Item : Type} {dump : Item → Json F} {first second : List Item}
    (same : Json.sortItems (first.map dump) = Json.sortItems (second.map dump)) :
    List.Forall₂ (fun left right => (dump left).Alike (dump right)) first second := by
  induction first generalizing second with
  | nil =>
      cases second with
      | nil => exact .nil
      | cons item items => simp [Json.sortItems] at same
  | cons item items inductionHypothesis =>
      cases second with
      | nil => simp [Json.sortItems] at same
      | cons other others =>
          simp only [List.map_cons, Json.sortItems, List.cons.injEq] at same
          exact .cons same.1 (inductionHypothesis same.2)

omit [Hashing] [Json.FloatRepr F] in
theorem contentAlike_of_payload {first second : List (Node F) × List (Edge F)}
    (alike : (payload first.1 first.2).Alike (payload second.1 second.2)) :
    ContentAlike first second := by
  simp only [Json.Alike, payload, Json.sortKeys, Json.object.injEq] at alike
  have members : ∀ member : Text × Json F,
      member ∈ Json.sortMembers
          [("nodes", .array (first.1.map Node.dump)), ("edges", .array (first.2.map Edge.dump))] →
        member ∈ Json.sortMembers
          [("nodes", .array (second.1.map Node.dump)),
            ("edges", .array (second.2.map Edge.dump))] := by
    intro member among
    rw [← List.mem_insertionSort Json.nameLe, alike, List.mem_insertionSort] at among
    exact among
  have nodes := members ("nodes", .array (Json.sortItems (first.1.map Node.dump)))
    (by simp [Json.sortMembers, Json.sortMember, Json.sortKeys])
  have edges := members ("edges", .array (Json.sortItems (first.2.map Edge.dump)))
    (by simp [Json.sortMembers, Json.sortMember, Json.sortKeys])
  simp [Json.sortMembers, Json.sortMember, Json.sortKeys] at nodes edges
  exact ⟨forall₂_of_sortItems nodes, forall₂_of_sortItems edges⟩

omit [Hashing] [Json.FloatRepr F] in
theorem distinctItems_of_forall {items : List (Json F)}
    (distinct : ∀ item ∈ items, item.Distinct) : Json.DistinctItems items := by
  induction items with
  | nil => trivial
  | cons item items inductionHypothesis =>
      exact ⟨distinct item List.mem_cons_self,
        inductionHypothesis fun other among => distinct other (List.mem_cons_of_mem _ among)⟩

omit [Hashing] [Json.FloatRepr F] in
theorem payload_distinct {nodes : List (Node F)} {edges : List (Edge F)}
    (nodesDistinct : ∀ node ∈ nodes, (Json.object node.metadata).Distinct)
    (edgesDistinct : ∀ edge ∈ edges, (Json.object edge.metadata).Distinct) :
    (payload nodes edges).Distinct := by
  have nodeDumps : Json.DistinctItems (nodes.map Node.dump) := by
    apply distinctItems_of_forall
    intro item among
    obtain ⟨node, nodeIn, rfl⟩ := List.mem_map.mp among
    have names : [("id" : Text), "label", "kind", "path", "metadata"].Nodup := by decide
    simp only [Node.dump, Json.Distinct, Json.DistinctMembers, Json.DistinctMember]
    exact ⟨names, trivial, trivial, trivial, trivial, nodesDistinct node nodeIn, trivial⟩
  have edgeDumps : Json.DistinctItems (edges.map Edge.dump) := by
    apply distinctItems_of_forall
    intro item among
    obtain ⟨edge, edgeIn, rfl⟩ := List.mem_map.mp among
    have names : [("source" : Text), "target", "relation", "metadata"].Nodup := by decide
    simp only [Edge.dump, Json.Distinct, Json.DistinctMembers, Json.DistinctMember]
    exact ⟨names, trivial, trivial, trivial, edgesDistinct edge edgeIn, trivial⟩
  have names : [("nodes" : Text), "edges"].Nodup := by decide
  simp only [payload, Json.Distinct, Json.DistinctMembers, Json.DistinctMember]
  exact ⟨names, nodeDumps, edgeDumps, trivial⟩

theorem contentAlike_of_digest (injective : Function.Injective Hashing.sha256)
    (snapshot nodes edges : GraphRecord F)
    (same : graphRecordDigest snapshot.nodes snapshot.edges =
      graphRecordDigest nodes.nodes edges.edges) :
    ContentAlike (nodes.sorted.1, edges.sorted.2) (snapshot.nodes, snapshot.edges) := by
  have dumps := injective (List.append_cancel_left same)
  have alike : (payload snapshot.nodes snapshot.edges).Alike (payload nodes.nodes edges.edges) :=
    Json.alike_of_dumps (payload_distinct snapshot.nodesDistinct snapshot.edgesDistinct)
      (payload_distinct nodes.nodesDistinct edges.edgesDistinct) dumps
  have sorted := payload_sorted nodes.nodes edges.edges
  exact contentAlike_of_payload (sorted.trans alike.symm)

/-- A read whose three parts see different states of the database gives nothing, or the nodes and
edges of one record that was put under its stored key. -/
theorem getFrom_untorn (injective : Function.Injective Hashing.sha256)
    (before during later : List (Operation F)) (key : GraphStoreKey) :
    getFrom (F := F) (run .empty before) (run (run .empty before) during)
        (run (run (run .empty before) during) later) key = none ∨
      ∃ record, Operation.put record ∈ before ∧ sqliteKeyValues record.key = sqliteKeyValues key ∧
        ∃ content, getFrom (run .empty before) (run (run .empty before) during)
            (run (run (run .empty before) during) later) key = some content ∧
          ContentAlike content (record.nodes, record.edges) := by
  have first : HoldsPut (sqliteKeyValues key) before (run .empty before) := by
    have nothing : HoldsPut (F := F) (sqliteKeyValues key) [] .empty := Or.inl rfl
    have holds := run_holdsPut nothing before
    simpa using holds
  obtain ⟨nodes, nodeRows, -⟩ := (run_holdsPut first during).items
  obtain ⟨edges, -, edgeRows⟩ := (run_holdsPut (run_holdsPut first during) later).items
  rcases first with nothing | ⟨snapshot, among, stored, rows⟩
  · left
    have missing : (run .empty before).snapshots.find?
        (fun row => row.key = sqliteKeyValues key) = none := by
      rw [← List.head?_filter]
      exact congrArg (fun rows => rows.snapshots.head?) nothing
    simp [getFrom, missing]
  · rw [getFrom_records (congrArg Database.snapshots rows) nodeRows edgeRows]
    split
    next agrees =>
      exact Or.inr ⟨snapshot, among, stored, _, rfl,
        contentAlike_of_digest injective snapshot nodes edges agrees.2.2⟩
    next => exact Or.inl rfl

end Store

section Sample

/-- The SHA-256 of `a!`, and padding for other texts. -/
@[reducible]
def sampleHashing : Hashing where
  blake2b _ := []
  sha256 text :=
    if text = "a!" then "242ed53862c43c5be5f2c5213586d50724138dea7ae1d8760752c91f315dcd31"
    else (text ++ List.replicate 64 '0').take 64

attribute [local instance] sampleHashing

theorem sampleHashing_hex (text : Text) : (Hashing.sha256 text).length = 64 := by
  simp only [Hashing.sha256]
  split
  · rfl
  · simp

def sampleKey (namespace_ : Text) : GraphStoreKey where
  namespace_ := namespace_
  sourceId := "wiki"
  bundleId := "wiki:1"
  projectionSignature := "sha256:1"

def emptyRecord (namespace_ : Text) : GraphRecord Json.Decimal where
  key := sampleKey namespace_
  nodes := []
  edges := []
  nodesDistinct := nofun
  edgesDistinct := nofun

def linkedRecord (namespace_ : Text) : GraphRecord Json.Decimal where
  key := sampleKey namespace_
  nodes := [{ id := "page:b", label := "B", kind := "topic", path := "b.md" },
    { id := "page:a", label := "A", kind := "topic", path := "a.md" }]
  edges := [{ source := "page:a", target := "page:b", relation := "links_to" }]
  nodesDistinct := by simp [Json.Distinct, Json.DistinctMembers]
  edgesDistinct := by simp [Json.Distinct, Json.DistinctMembers]

/-- Records under two keys, one of which is invalidated. -/
def linkedRun : List (Operation Json.Decimal) :=
  [.put (linkedRecord "local"), .put (emptyRecord "other"), .invalidateSource "other" "wiki"]

theorem get_refines_single :
    Option.Rel ContentAlike (get (run .empty linkedRun) (sampleKey "local"))
      (some ((linkedRecord "local").nodes, (linkedRecord "local").edges)) := by
  apply get_refines sampleHashing_hex linkedRun (sampleKey "local")
  · unfold DigestsApart
    decide
  · have apart : ¬SamePart "other" "local" := by
      unfold SamePart Mimics
      decide
    intro operation among
    simp only [linkedRun, List.mem_cons, List.not_mem_nil, or_false] at among
    rcases among with rfl | rfl | rfl
    · exact fun _ => rfl
    · exact fun same => absurd same.namespace_ apart
    · exact fun same => absurd same apart

/-- A record is read under a key that mimics its own. -/
theorem get_mimicked :
    ¬ ∀ (operations : List (Operation Json.Decimal)) (key : GraphStoreKey),
      DigestsApart (operations.flatMap Operation.parts ++ key.parts) →
      Option.Rel ContentAlike (get (run .empty operations) key)
        ((runMap operations key).map fun record => (record.nodes, record.edges)) := by
  intro claimed
  have related := claimed [.put (emptyRecord "a!")] (sampleKey "a-242ed53862c4") (by
    unfold DigestsApart
    decide)
  have stored : sqliteKeyValues (sampleKey "a-242ed53862c4") = sqliteKeyValues (sampleKey "a!") := by
    decide
  have represents : Represents (run .empty [.put (emptyRecord "a!")]) (sampleKey "a!")
      (some (emptyRecord "a!")) := by
    simp [Represents, run, Operation.apply, put_rowsAt, emptyRecord]
  have read : get (F := Json.Decimal) (run .empty [.put (emptyRecord "a!")])
      (sampleKey "a-242ed53862c4") = some ([], []) := by
    have own := get_of_represents represents fun record same => Option.some.inj same ▸ rfl
    unfold get getFrom at own ⊢
    rw [stored]
    exact own
  have missing : runMap [.put (emptyRecord "a!")] (sampleKey "a-242ed53862c4") = none := by
    decide
  rw [read, missing] at related
  cases related

end Sample

section Sample

attribute [local instance] Hashing.transparent

def singlePut : List (Operation Json.Decimal) := [.put (linkedRecord "local")]

def deletion : List (Operation Json.Decimal) := [.invalidateSource "local" "wiki"]

/-- The nodes are read after the record was deleted. -/
theorem getFrom_untorn_deleted :
    getFrom (F := Json.Decimal) (run .empty singlePut) (run (run .empty singlePut) deletion)
        (run (run (run .empty singlePut) deletion) singlePut) (sampleKey "local") = none ∨
      ∃ record, Operation.put record ∈ singlePut ∧
        sqliteKeyValues record.key = sqliteKeyValues (sampleKey "local") ∧
        ∃ content, getFrom (run .empty singlePut) (run (run .empty singlePut) deletion)
            (run (run (run .empty singlePut) deletion) singlePut) (sampleKey "local") =
              some content ∧
          ContentAlike content (record.nodes, record.edges) :=
  getFrom_untorn Function.injective_id singlePut deletion singlePut (sampleKey "local")

end Sample

end LlmWikiServe.GraphStore
