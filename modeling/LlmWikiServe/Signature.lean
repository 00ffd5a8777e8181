import LlmWikiServe.FileTree

/-!
# Source signatures

One walk over the source tree records the state of every directory it lists and of
every file it signs; a cached snapshot is checked by looking at the recorded paths
only.
-/

namespace LlmWikiServe

/-- The digests a server computes, over the bytes of a file or the UTF-8 bytes of a text. -/
class Hashing where
  /-- `hashlib.blake2b(digest_size=16)` in hexadecimal. -/
  blake2b : Content → Text
  /-- `hashlib.sha256` of the UTF-8 bytes, in hexadecimal. -/
  sha256 : Text → Text

/-- Digests that are their own inputs, marked by the kind of content. -/
@[reducible]
def Hashing.transparent : Hashing where
  blake2b
    | .text text => 't' :: text
    | .binary octets => 'b' :: octets.map fun octet => Char.ofNat octet.toNat
  sha256 text := text

def signatureSuffixes : List Text := [".md", ".org"]

def signatureFilenames : List Text :=
  [".wiki-compiler.json", "dendron.yml", "quartz.config.js", "quartz.config.ts",
    "quartz.config.yaml", "quartz.config.yml"]

def signatureMarkerNames : List Text := [".foam", ".obsidian"]

def signatureRelativeFilenames : List RelPath :=
  [[".vscode", "extensions.json"], ["logseq", "config.edn"]]

def ignoredSignatureParts : List Text :=
  [".git", ".runtime-logs", "node_modules", ".venv", "__pycache__", "dist", "build"]

inductive PathKind where
  | dir
  | file
  | missing
  deriving DecidableEq

structure PathState where
  relativePath : RelPath
  kind : PathKind
  device : Nat
  inode : Nat
  mtimeNs : Int
  size : Nat
  digest : Text
  deriving DecidableEq

/-- Path, modification time and size of a signed path. -/
abbrev SourceSignature := List (Text × Int × Nat)

structure SourceSignatureSnapshot where
  signature : SourceSignature
  projectionSignature : List PathState
  paths : List PathState
  freshnessSignature : List PathState := []
  deriving DecidableEq

/-- The relative path is one of the marker names of a root. -/
def isMarkerPath (path : RelPath) : Bool := path ∈ signatureMarkerNames.map fun name => [name]

section Signatures

variable [Unicode] [Hashing]

omit [Hashing] in
/-- Whether the walk signs the node at a path below the root called `rootName`. -/
def isSignatureFile (rootName : Text) (path : RelPath) (node : Node) : Bool :=
  let suffix := Text.lower (RelPath.suffix path.name)
  if node.isSymlink || !node.isFile || path.any (· ∈ ignoredSignatureParts) then false
  else if (".vscode" : Text) ∈ path ∧ suffix ∈ signatureSuffixes then false
  else if suffix ∈ signatureSuffixes then true
  else if path.name = ("graph.json" : Text) ∧
      RelPath.nameIn rootName path.dropLast = ("graph" : Text) then true
  else if isMarkerPath path then true
  else if path ∈ signatureRelativeFilenames then true
  else path.name ∈ signatureFilenames

/-- The line a directory digest holds for an entry. -/
def digestEntry (rootName : Text) (path : RelPath) (entry : Text × Node) : Text :=
  if entry.1 ∈ ignoredSignatureParts || entry.2.isSymlink then []
  else if entry.2.isDir then ("dir:" : Text) ++ entry.1 ++ ['\x00']
  else if isSignatureFile rootName (path ++ [entry.1]) entry.2 then
    ("file:" : Text) ++ entry.1 ++ ['\x00']
  else []

def directoryDigest (rootName : Text) (path : RelPath) (children : Children) : Text :=
  if isMarkerPath path then []
  else Hashing.blake2b (.text (children.flatMap (digestEntry rootName path)))

def nodeState (rootName : Text) (path : RelPath) : Node → Option PathState
  | .dir stat children =>
      some ⟨path, .dir, stat.device, stat.inode, stat.mtimeNs, stat.size,
        directoryDigest rootName path children⟩
  | .file stat content =>
      some ⟨path, .file, stat.device, stat.inode, stat.mtimeNs, stat.size,
        Hashing.blake2b content⟩
  | _ => none

def pathState (rootName : Text) (path : RelPath) (kind : PathKind) (allowSymlink : Bool)
    (found : Option Node) : Option PathState :=
  match found with
  | none => none
  | some node =>
      if !allowSymlink && node.isSymlink then none
      else
        match kind with
        | .dir => if node.isDir then node.resolve.bind (nodeState rootName path) else none
        | .file => if node.isFile then node.resolve.bind (nodeState rootName path) else none
        | .missing => none

def missingState : PathState := ⟨[], .missing, 0, 0, 0, 0, []⟩

def rootFallbackState (rootName : Text) (root : Option Node) : PathState :=
  match pathState rootName [] .dir true root with
  | some state => state
  | none => (pathState rootName [] .file true root).getD missingState

/-! ## The walk -/

structure Scan where
  entries : SourceSignature
  projectionStates : List PathState
  pathStates : List PathState

namespace Scan

def empty : Scan := ⟨[], [], []⟩

def append (first second : Scan) : Scan :=
  ⟨first.entries ++ second.entries, first.projectionStates ++ second.projectionStates,
    first.pathStates ++ second.pathStates⟩

/-- What is recorded for a signed path, whose signature entry is given. -/
def signed (entry : Text × Int × Nat) (state : PathState) : Scan := ⟨[entry], [state], [state]⟩

end Scan

/-- The record of a marker directory, which counts at the root only. -/
def scanMarker (rootName : Text) (path : RelPath) (entry : Text × Node) : Scan :=
  let markerPath := path ++ [entry.1]
  match entry.2 with
  | .dir stat _ =>
      if entry.1 ∈ signatureMarkerNames ∧ isMarkerPath markerPath then
        match pathState rootName markerPath .dir false (some entry.2) with
        | some state =>
            .signed (RelPath.asPosix markerPath ++ ("/" : Text), stat.mtimeNs, 0) state
        | none => ⟨[(RelPath.asPosix markerPath ++ ("/" : Text), stat.mtimeNs, 0)], [], []⟩
      else .empty
  | _ => .empty

def scanFile (rootName : Text) (path : RelPath) (entry : Text × Node) : Scan :=
  let filePath := path ++ [entry.1]
  match entry.2 with
  | .file stat _ =>
      if isSignatureFile rootName filePath entry.2 then
        match pathState rootName filePath .file false (some entry.2) with
        | some state => .signed (RelPath.asPosix filePath, stat.mtimeNs, stat.size) state
        | none => ⟨[(RelPath.asPosix filePath, stat.mtimeNs, stat.size)], [], []⟩
      else .empty
  | _ => .empty

def Scan.concat (scans : List Scan) : Scan := scans.foldr Scan.append Scan.empty

def scanListing (rootName : Text) (path : RelPath) (stat : Stat) (children : Children) : Scan :=
  let own : Scan :=
    match pathState rootName path .dir (path = []) (some (.dir stat children)) with
    | some state => ⟨[], [], [state]⟩
    | none => .empty
  own.append
    ((Scan.concat (children.map (scanMarker rootName path))).append
      (Scan.concat (children.map (scanFile rootName path))))

def walkEnters (name : Text) : Bool :=
  name ∉ ignoredSignatureParts && name ∉ signatureMarkerNames

mutual

def walkNode (rootName : Text) (path : RelPath) : Node → Scan
  | .dir stat children =>
      (scanListing rootName path stat children).append (walkChildren rootName path children)
  | _ => .empty
termination_by structural node => node

def walkChildren (rootName : Text) (path : RelPath) : Children → Scan
  | [] => .empty
  | (name, node) :: rest =>
      (if walkEnters name then walkNode rootName (path ++ [name]) node else .empty).append
        (walkChildren rootName path rest)
termination_by structural children => children

end

def sourceSignatureSnapshot (rootName : Text) (tree : FileTree) : SourceSignatureSnapshot :=
  match tree.root with
  | none => { signature := [], projectionSignature := [], paths := [missingState] }
  | some node =>
      let scan := walkNode rootName [] node
      { signature := scan.entries
        projectionSignature := scan.projectionStates
        paths :=
          if scan.pathStates = [] then [rootFallbackState rootName (some node)]
          else scan.pathStates }

/-! ## The incremental check -/

def currentPathState (rootName : Text) (tree : FileTree) (previous : PathState) :
    Option PathState :=
  if previous.kind = .missing then
    if (tree.at? previous.relativePath).any Node.exists_ then
      some (rootFallbackState rootName (tree.at? previous.relativePath))
    else some previous
  else
    pathState rootName previous.relativePath previous.kind (previous.relativePath = [])
      (tree.at? previous.relativePath)

def isCurrent (rootName : Text) (tree : FileTree) (snapshot : SourceSignatureSnapshot) : Bool :=
  snapshot.paths.all fun state => currentPathState rootName tree state = some state

/-- One call of the signature cache: the snapshot it keeps, which is also the one returned. -/
def currentSnapshot (rootName : Text) (refresh : Bool) (tree : FileTree)
    (cached : Option SourceSignatureSnapshot) : SourceSignatureSnapshot :=
  match cached with
  | none => sourceSignatureSnapshot rootName tree
  | some snapshot =>
      if refresh || !isCurrent rootName tree snapshot then sourceSignatureSnapshot rootName tree
      else snapshot

/-! ## Digest of the projection states -/

def PathKind.text : PathKind → Text
  | .dir => "dir"
  | .file => "file"
  | .missing => "missing"

omit [Unicode] [Hashing] in
def PathState.digestLine (state : PathState) : Text :=
  Text.join "\t"
    [RelPath.asPosix state.relativePath, state.kind.text, Text.ofNat state.size, state.digest]

omit [Unicode] in
def projectionSignatureDigest (signature : List PathState) : Text :=
  if signature = [] then []
  else
    let payload := Text.join "\n" (signature.map PathState.digestLine)
    ("sha256:" : Text) ++ Hashing.sha256 payload

end Signatures

end LlmWikiServe
