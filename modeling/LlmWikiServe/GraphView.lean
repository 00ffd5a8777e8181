import LlmWikiServe.Projection

/-!
# The graph a request without drafts sees

The view keeps the nodes of approved pages and the other nodes joined to one of
them, rewrites their paths, drops metadata that mentions a withheld path, and keeps
the edges between the nodes left.
-/

namespace LlmWikiServe

structure GraphView where
  nodes : List GraphNode
  edges : List GraphEdge
  nodesById : List (Text × GraphNode)
  outgoing : List (Text × List GraphEdge)
  incoming : List (Text × List GraphEdge)

/-- The edges whose endpoints are both among the ids. -/
def edgesBetween (ids : List Text) (edges : List GraphEdge) : List GraphEdge :=
  edges.filter fun edge => edge.source ∈ ids ∧ edge.target ∈ ids

def GraphView.build (nodes : List GraphNode) (edges : List GraphEdge) : GraphView :=
  let visibleEdges := edgesBetween (nodes.map GraphNode.id) edges
  { nodes
    edges := visibleEdges
    nodesById := Keyed.update [] (nodes.map fun node => (node.id, node))
    outgoing := Keyed.group GraphEdge.source visibleEdges
    incoming := Keyed.group GraphEdge.target visibleEdges }

/-! ## Withheld paths in metadata -/

mutual

def referencesAnyPath (paths : List Text) : Value → Bool
  | .str text => paths.any fun path => path ≠ [] && Text.contains path text
  | .dict entries => anyEntryReferences paths entries
  | .sequence _ items => anyItemReferences paths items
  | _ => false
termination_by structural value => value

def anyItemReferences (paths : List Text) : List Value → Bool
  | [] => false
  | item :: items => referencesAnyPath paths item || anyItemReferences paths items
termination_by structural items => items

def anyEntryReferences (paths : List Text) : List (Value × Value) → Bool
  | [] => false
  | (_, value) :: entries => referencesAnyPath paths value || anyEntryReferences paths entries
termination_by structural entries => entries

end

/-- The strings a value holds at any depth of dictionary values and sequences. -/
inductive Value.Holds : Value → Text → Prop where
  | text (text : Text) : Value.Holds (.str text) text
  | item {kind : SequenceKind} {items : List Value} {item : Value} {text : Text} :
      item ∈ items → Value.Holds item text → Value.Holds (.sequence kind items) text
  | entry {entries : List (Value × Value)} {key value : Value} {text : Text} :
      (key, value) ∈ entries → Value.Holds value text → Value.Holds (.dict entries) text

theorem anyItemReferences_iff (paths : List Text) (items : List Value) :
    anyItemReferences paths items = true ↔ ∃ item ∈ items, referencesAnyPath paths item = true := by
  induction items with
  | nil => simp [anyItemReferences]
  | cons head tail inductionHypothesis => simp [anyItemReferences, inductionHypothesis]

theorem anyEntryReferences_iff (paths : List Text) (entries : List (Value × Value)) :
    anyEntryReferences paths entries = true ↔
      ∃ entry ∈ entries, referencesAnyPath paths entry.2 = true := by
  induction entries with
  | nil => simp [anyEntryReferences]
  | cons head tail inductionHypothesis => simp [anyEntryReferences, inductionHypothesis]

theorem referencesAnyPath_of_holds {paths : List Text} {value : Value} {text path : Text}
    (holds : value.Holds text) (membership : path ∈ paths) (nonempty : path ≠ [])
    (inside : path <:+: text) : referencesAnyPath paths value = true := by
  induction holds with
  | text text =>
      simp only [referencesAnyPath, List.any_eq_true]
      exact ⟨path, membership, by simpa [nonempty] using (Text.contains_iff_infix path text).mpr inside⟩
  | item itemIn _ inductionHypothesis =>
      simp only [referencesAnyPath, anyItemReferences_iff]
      exact ⟨_, itemIn, inductionHypothesis inside⟩
  | entry entryIn _ inductionHypothesis =>
      simp only [referencesAnyPath, anyEntryReferences_iff]
      exact ⟨_, entryIn, inductionHypothesis inside⟩

def sanitizeGraphNodeMetadata (unapprovedPaths : List Text) (metadata : Metadata) : Metadata :=
  metadata.filter fun entry => !referencesAnyPath unapprovedPaths entry.2

theorem sanitized_withholds {paths : List Text} {metadata : Metadata} {entry : Text × Value}
    {path text : Text} (membership : path ∈ paths) (nonempty : path ≠ [])
    (kept : entry ∈ sanitizeGraphNodeMetadata paths metadata) (holds : entry.2.Holds text) :
    ¬ path <:+: text := by
  intro inside
  have recognised := referencesAnyPath_of_holds holds membership nonempty inside
  simp [sanitizeGraphNodeMetadata, recognised] at kept

/-! ## The view -/

section View

variable [Unicode]

def approvedPageIds (pages : List WikiPage) : List Text :=
  (pages.filter WikiPage.approvedForServing).map fun page => pageNodeId page.id

def approvedPaths (pages : List WikiPage) : List Text :=
  (pages.filter WikiPage.approvedForServing).map WikiPage.path

def unapprovedPaths (pages : List WikiPage) : List Text :=
  (pages.filter fun page => !page.approvedForServing).map WikiPage.path

def nonPageEndpoints (edge : GraphEdge) : List Text :=
  [edge.source, edge.target].filter fun id => !isPageNodeId id

def adjacentNonPageNodes (approvedPages : List Text) (edges : List GraphEdge) : List Text :=
  (edges.filter fun edge => edge.source ∈ approvedPages ∨ edge.target ∈ approvedPages).flatMap
    nonPageEndpoints

def lentPaths (approvedPagePaths : List (Text × Text)) (edge : GraphEdge) : List (Text × Text) :=
  let lend (owner receiver : Text) : List (Text × Text) :=
    match Keyed.get? approvedPagePaths owner with
    | some path => if path ≠ [] ∧ isPageNodeId receiver = false then [(receiver, path)] else []
    | none => []
  lend edge.source edge.target ++ lend edge.target edge.source

def approvedPagePaths (pages : List WikiPage) : List (Text × Text) :=
  Keyed.update [] ((pages.filter WikiPage.approvedForServing).map fun page =>
    (pageNodeId page.id, page.path))

def adjacentNonPagePaths (pages : List WikiPage) (edges : List GraphEdge) : List (Text × Text) :=
  Keyed.setDefaults (edges.flatMap (lentPaths (approvedPagePaths pages)))

def approvedGraphNode (approvedAdjacentPaths : List (Text × Text)) (unapprovedPaths : List Text)
    (node : GraphNode) : GraphNode :=
  if isPageNodeId node.id then node
  else
    { node with
      path := (Keyed.get? approvedAdjacentPaths node.id).getD node.path
      metadata := sanitizeGraphNodeMetadata unapprovedPaths node.metadata }

/-- Whether a node is part of the approved view. -/
def nodeVisible (index : WikiIndex) (node : GraphNode) : Bool :=
  node.id ∈ approvedPageIds index.pages ||
    (node.path ≠ [] && node.path ∈ approvedPaths index.pages) ||
    node.id ∈ adjacentNonPageNodes (approvedPageIds index.pages) index.edges

def visibleNodeIds (index : WikiIndex) : List Text :=
  (index.nodes.filter (nodeVisible index)).map GraphNode.id

def approvedGraphView (index : WikiIndex) : GraphView :=
  let visible := visibleNodeIds index
  GraphView.build
    ((index.nodes.filter fun node => node.id ∈ visible).map
      (approvedGraphNode (adjacentNonPagePaths index.pages index.edges)
        (unapprovedPaths index.pages)))
    (edgesBetween visible index.edges)

end View

end LlmWikiServe
