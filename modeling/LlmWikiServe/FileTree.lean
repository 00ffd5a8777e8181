import LlmWikiServe.Foundation.Keyed
import LlmWikiServe.Foundation.Unicode

/-!
# File trees

What a server sees below a wiki root: directories as their entries in name order,
files, symbolic links and other special files, with the metadata `stat` reports.
-/

namespace LlmWikiServe

/-! ## Names and relative paths -/

/-- A path below a root by its components, the root itself being the empty one. -/
abbrev RelPath := List Text

namespace RelPath

/-- `PurePath.as_posix`. -/
def asPosix (path : RelPath) : Text := if path = [] then "." else Text.join "/" path

/-- `PurePath.name`, the root being called `rootName`. -/
def nameIn (rootName : Text) (path : RelPath) : Text := path.getLast?.getD rootName

def name (path : RelPath) : Text := nameIn [] path

/-- A name splits at its last dot unless the dot is its first or its last character. -/
def nameSplits (name : Text) : Bool :=
  '.' ∈ name && Text.beforeLast '.' name ≠ [] && Text.afterLast '.' name ≠ []

/-- `PurePath.stem` of a name. -/
def stem (name : Text) : Text := if nameSplits name then Text.beforeLast '.' name else name

/-- `PurePath.suffix` of a name. -/
def suffix (name : Text) : Text := if nameSplits name then '.' :: Text.afterLast '.' name else []

end RelPath

/-- What a directory entry may be called. -/
def validName (name : Text) : Prop :=
  name ≠ [] ∧ '/' ∉ name ∧ '\x00' ∉ name ∧ name ≠ ("." : Text) ∧ name ≠ (".." : Text)

instance (name : Text) : Decidable (validName name) := by
  unfold validName
  infer_instance

/-! ## Nodes -/

/-- The bytes of a file, decoded where they are valid UTF-8. -/
inductive Content where
  | text (text : Text)
  | binary (octets : List UInt8)
  deriving DecidableEq

structure Stat where
  device : Nat
  inode : Nat
  mtimeNs : Int
  size : Nat
  deriving DecidableEq

inductive Node where
  | file (stat : Stat) (content : Content)
  /-- A directory with its entries in name order. -/
  | dir (stat : Stat) (children : List (Text × Node))
  /-- A symbolic link, the absolute path it leads to and the node there. -/
  | link (location : List Text) (target : Node)
  /-- A symbolic link that leads nowhere. -/
  | dangling (location : List Text)
  /-- A socket, a pipe or a device. -/
  | special (stat : Stat)

abbrev Children := List (Text × Node)

namespace Node

/-- The node after following symbolic links. -/
def resolve : Node → Option Node
  | link _ target => resolve target
  | dangling _ => none
  | node => some node
termination_by structural node => node

def isSymlink : Node → Bool
  | link _ _ => true
  | dangling _ => true
  | _ => false

def isDir (node : Node) : Bool :=
  match node.resolve with
  | some (dir _ _) => true
  | _ => false

def isFile (node : Node) : Bool :=
  match node.resolve with
  | some (file _ _) => true
  | _ => false

def exists_ (node : Node) : Bool := node.resolve.isSome

def child? (name : Text) (node : Node) : Option Node :=
  match node.resolve with
  | some (dir _ children) => Keyed.get? children name
  | _ => none

/-- The node at a path, links being followed on the way to it only. -/
def at? : RelPath → Node → Option Node
  | [], node => some node
  | name :: rest, node => (node.child? name).bind (at? rest)

/-- Directory entries have valid names and are listed in strictly increasing order. -/
inductive WellFormed : Node → Prop where
  | file (stat : Stat) (content : Content) : WellFormed (.file stat content)
  | dir (stat : Stat) (children : Children)
      (names : ∀ name ∈ children.map Prod.fst, validName name)
      (sorted : (children.map Prod.fst).Pairwise (· < ·))
      (nodes : ∀ entry ∈ children, WellFormed entry.2) : WellFormed (.dir stat children)
  | link (location : List Text) (target : Node) (followed : WellFormed target) :
      WellFormed (.link location target)
  | dangling (location : List Text) : WellFormed (.dangling location)
  | special (stat : Stat) : WellFormed (.special stat)

@[simp]
theorem resolve_file (stat : Stat) (content : Content) :
    (file stat content).resolve = some (file stat content) := rfl

@[simp]
theorem resolve_dir (stat : Stat) (children : Children) :
    (dir stat children).resolve = some (dir stat children) := rfl

@[simp]
theorem resolve_special (stat : Stat) : (special stat).resolve = some (special stat) := rfl

@[simp]
theorem isDir_dir (stat : Stat) (children : Children) : (dir stat children).isDir = true := rfl

@[simp]
theorem isFile_file (stat : Stat) (content : Content) : (file stat content).isFile = true := rfl

theorem isSymlink_of_resolve : ∀ {node resolved : Node}, node.resolve = some resolved →
    resolved.isSymlink = false
  | .file _ _, _, followed => Option.some.inj followed ▸ rfl
  | .dir _ _, _, followed => Option.some.inj followed ▸ rfl
  | .special _, _, followed => Option.some.inj followed ▸ rfl
  | .dangling _, _, followed => absurd followed (by simp [resolve])
  | .link _ target, _, followed => @isSymlink_of_resolve target _ followed

/-- A directory that is no link is a directory entry by itself. -/
theorem eq_dir_of_not_symlink {node : Node} (directory : node.isDir = true)
    (plain : node.isSymlink = false) : ∃ stat children, node = dir stat children := by
  cases node with
  | dir stat children => exact ⟨stat, children, rfl⟩
  | link location target => simp [isSymlink] at plain
  | dangling location => simp [isSymlink] at plain
  | file stat content => simp [isDir] at directory
  | special stat => simp [isDir] at directory

theorem eq_file_of_not_symlink {node : Node} (regular : node.isFile = true)
    (plain : node.isSymlink = false) : ∃ stat content, node = file stat content := by
  cases node with
  | file stat content => exact ⟨stat, content, rfl⟩
  | link location target => simp [isSymlink] at plain
  | dangling location => simp [isSymlink] at plain
  | dir stat children => simp [isFile] at regular
  | special stat => simp [isFile] at regular

end Node

namespace Node

theorem at?_append (path rest : RelPath) (node : Node) :
    node.at? (path ++ rest) = (node.at? path).bind (at? rest) := by
  induction path generalizing node with
  | nil => rfl
  | cons name path inductionHypothesis =>
      simp only [List.cons_append, at?, Option.bind_assoc]
      congr 1
      exact funext inductionHypothesis

theorem WellFormed.resolve {node resolved : Node} (valid : node.WellFormed)
    (followed : node.resolve = some resolved) : resolved.WellFormed := by
  induction valid with
  | file stat content => exact Option.some.inj followed ▸ .file stat content
  | dir stat children names sorted nodes _ =>
      exact Option.some.inj followed ▸ .dir stat children names sorted nodes
  | link location target _ inductionHypothesis => exact inductionHypothesis followed
  | dangling location => exact absurd followed (by simp [Node.resolve])
  | special stat => exact Option.some.inj followed ▸ .special stat

theorem WellFormed.at? {path : RelPath} {node found : Node} (valid : node.WellFormed)
    (located : node.at? path = some found) : found.WellFormed := by
  induction path generalizing node with
  | nil => exact Option.some.inj located ▸ valid
  | cons name rest inductionHypothesis =>
      simp only [Node.at?, Option.bind_eq_some_iff] at located
      rcases located with ⟨child, childFound, located⟩
      refine inductionHypothesis ?_ located
      unfold child? at childFound
      split at childFound
      next stat children resolved =>
        cases valid.resolve resolved with
        | dir _ _ _ _ nodes => exact nodes _ (Keyed.mem_of_get? childFound)
      next => simp at childFound

end Node

namespace Node

mutual

/-- The well-formedness of a node, computed. -/
def lawful : Node → Bool
  | dir _ children =>
      (children.map Prod.fst).all (fun name => validName name) &&
        decide ((children.map Prod.fst).Pairwise (· < ·)) && lawfulChildren children
  | link _ target => lawful target
  | _ => true
termination_by structural node => node

def lawfulChildren : Children → Bool
  | [] => true
  | (_, node) :: rest => lawful node && lawfulChildren rest
termination_by structural children => children

end

mutual

theorem wellFormed_of_lawful : ∀ {node : Node}, node.lawful = true → node.WellFormed
  | .file stat content, _ => .file stat content
  | .dir stat children, valid => by
      simp only [lawful, Bool.and_eq_true, List.all_eq_true, decide_eq_true_eq] at valid
      exact .dir stat children valid.1.1 valid.1.2 (wellFormed_of_lawfulChildren valid.2)
  | .link location target, valid => .link location target (wellFormed_of_lawful valid)
  | .dangling location, _ => .dangling location
  | .special stat, _ => .special stat

theorem wellFormed_of_lawfulChildren : ∀ {children : Children}, lawfulChildren children = true →
    ∀ entry ∈ children, WellFormed entry.2
  | [], _, entry, entryIn => absurd entryIn List.not_mem_nil
  | (name, node) :: rest, valid, entry, entryIn => by
      simp only [lawfulChildren, Bool.and_eq_true] at valid
      rcases List.mem_cons.mp entryIn with rfl | later
      · exact wellFormed_of_lawful valid.1
      · exact wellFormed_of_lawfulChildren valid.2 entry later

end

end Node

/-- What a root path leads to, if anything, after following links. -/
structure FileTree where
  root : Option Node
  wellFormed : ∀ node, root = some node → node.WellFormed
  followed : ∀ node, root = some node → node.resolve = some node

namespace FileTree

/-- The tree of a root directory that is found well-formed. -/
def ofChildren (stat : Stat) (children : Children)
    (lawful : (Node.dir stat children).lawful = true) : FileTree where
  root := some (.dir stat children)
  wellFormed := fun _ rooted => Option.some.inj rooted ▸ Node.wellFormed_of_lawful lawful
  followed := fun _ rooted => Option.some.inj rooted ▸ rfl

/-- A file with a text, in a state told apart by its inode and size. -/
def textFile (inode : Nat) (text : Text) : Node := .file ⟨1, inode, 0, text.length⟩ (.text text)

def at? (tree : FileTree) (path : RelPath) : Option Node := tree.root.bind (Node.at? path)

theorem at?_wellFormed {tree : FileTree} {path : RelPath} {node : Node}
    (found : tree.at? path = some node) : node.WellFormed := by
  rcases Option.bind_eq_some_iff.mp found with ⟨root, rooted, located⟩
  exact (tree.wellFormed root rooted).at? located

theorem at?_child {tree : FileTree} {path : RelPath} {stat : Stat} {children : Children}
    {entry : Text × Node} (found : tree.at? path = some (.dir stat children))
    (entryIn : entry ∈ children) : tree.at? (path ++ [entry.1]) = some entry.2 := by
  have distinct : (children.map Prod.fst).Nodup := by
    cases at?_wellFormed found with
    | dir _ _ _ sorted _ => exact sorted.imp fun less same => absurd (same ▸ less) (List.lt_irrefl _)
  rcases Option.bind_eq_some_iff.mp found with ⟨root, rooted, located⟩
  rw [at?, rooted, Option.bind_some, Node.at?_append, located, Option.bind_some]
  simp [Node.at?, Node.child?, Keyed.get?_of_mem distinct entryIn]

end FileTree

end LlmWikiServe
