import LlmWikiServe.SignedFiles
import Mathlib.Data.List.Sort

/-!
# Trees with the same sources

What the adapters look up in a tree without symbolic links is settled by the files they look for:
the pages below a directory, the roots told by their hub files and the roots nested in them.  The
walk signs all of these files but those below `.runtime-logs` and those called `.md`.
-/

namespace LlmWikiServe

section Reading

variable [Unicode] [Host] {tree first second : FileTree}

/-! ## Resolved paths -/

omit [Unicode] in
theorem resolvePart_linkless (linkless : tree.Linkless) (here : List Text) (part : Text) :
    resolvePart tree here part =
      if part = (".." : Text) then here.dropLast
      else if (belowRoot? (here ++ [part])).isSome then here ++ [part]
      else (Host.linkAt (here ++ [part])).getD (here ++ [part]) := by
  unfold resolvePart
  split
  · rfl
  · cases below : belowRoot? (here ++ [part]) with
    | none => simp [below]
    | some path =>
        cases found : tree.at? path with
        | none => simp [below, found]
        | some node =>
            have plain := linkless.at? found [] node rfl
            cases node <;> simp_all [Node.isSymlink]

omit [Unicode] in
theorem resolvePart_congr (firstLinkless : first.Linkless) (secondLinkless : second.Linkless) :
    resolvePart first = resolvePart second := by
  funext here part
  rw [resolvePart_linkless firstLinkless, resolvePart_linkless secondLinkless]

omit [Unicode] in
theorem resolveBelow_congr (firstLinkless : first.Linkless) (secondLinkless : second.Linkless) :
    resolveBelow first = resolveBelow second := by
  funext path
  rw [resolveBelow, resolveBelow, resolvePart_congr firstLinkless secondLinkless]

omit [Unicode] in
theorem resolveText_congr (firstLinkless : first.Linkless) (secondLinkless : second.Linkless) :
    resolveText first = resolveText second := by
  funext text
  simp only [resolveText, resolveBelow_congr firstLinkless secondLinkless,
    resolvePart_congr firstLinkless secondLinkless]

omit [Unicode] in
/-- A path of entries is resolved already. -/
theorem resolveBelow_found (linkless : tree.Linkless) {path : RelPath} {node : Node}
    (found : tree.at? path = some node) : resolveBelow tree path = Host.rootParts ++ path := by
  have valid := FileTree.validName_of_at? found
  clear found
  have resolved : ∀ front : RelPath,
      path.foldl (resolvePart tree) (Host.rootParts ++ front) = Host.rootParts ++ (front ++ path) := by
    induction path with
    | nil => simp
    | cons part rest inductionHypothesis =>
        intro front
        have entry := valid part List.mem_cons_self
        have below : (belowRoot? (Host.rootParts ++ front ++ [part])).isSome = true := by
          simp [belowRoot?, List.append_assoc]
        rw [List.foldl_cons, resolvePart_linkless linkless, if_neg entry.2.2.2.2, if_pos below,
          List.append_assoc, inductionHypothesis fun other otherIn =>
            valid other (List.mem_cons_of_mem _ otherIn)]
        simp
  simpa [resolveBelow] using resolved []

/-! ## Files an adapter reads -/

omit [Unicode] in
theorem includeAdapterPath_iff (linkless : tree.Linkless) {root path : RelPath} :
    includeAdapterPath tree root path = true ↔
      (tree.at? path).isSome = true ∧
        (resolveBelow tree root).isPrefixOf (resolveBelow tree path) = true := by
  unfold includeAdapterPath
  cases found : tree.at? path with
  | none => simp
  | some node =>
      have plain := linkless.at? found [] node rfl
      have resolved := (linkless.at? found).resolve
      simp [Node.exists_, resolved, plain]

omit [Unicode] in
theorem includeAdapterPath_congr (firstLinkless : first.Linkless)
    (secondLinkless : second.Linkless) {root path : RelPath}
    (same : (first.at? path).isSome = (second.at? path).isSome) :
    includeAdapterPath first root path = includeAdapterPath second root path := by
  rw [Bool.eq_iff_iff, includeAdapterPath_iff firstLinkless, includeAdapterPath_iff secondLinkless,
    same, resolveBelow_congr firstLinkless secondLinkless]

omit [Unicode] in
theorem includeAdapterDir_congr (firstLinkless : first.Linkless)
    (secondLinkless : second.Linkless) {root path : RelPath}
    (same : isDirAt first path = isDirAt second path) :
    includeAdapterDir first root path = includeAdapterDir second root path := by
  have located : ∀ tree : FileTree, isDirAt tree path = true → (tree.at? path).isSome = true := by
    intro tree found
    cases here : tree.at? path with
    | none => simp [isDirAt, here] at found
    | some node => rfl
  unfold includeAdapterDir
  rw [← same]
  cases found : isDirAt first path with
  | false => simp
  | true =>
      rw [includeAdapterPath_congr firstLinkless secondLinkless
        ((located first found).trans (located second (same ▸ found)).symm)]

omit [Unicode] [Host] in
theorem isFileAt_eq (linkless : tree.Linkless) (path : RelPath) :
    isFileAt tree path = (contentAt? tree path).isSome := by
  unfold isFileAt contentAt?
  cases found : tree.at? path with
  | none => rfl
  | some node =>
      have resolved := (linkless.at? found).resolve
      rw [Option.bind_some, resolved]
      cases node <;> simp_all [Node.isFile]

/-- Where the file at a path lies in the page root, and none of its parts is ignored. -/
def mayRead (tree : FileTree) (root path : RelPath) : Bool :=
  (resolveBelow tree root).isPrefixOf (resolveBelow tree path) &&
    !(path.drop root.length).any (· ∈ ignoredAdapterParts) &&
    !((".vscode" : Text) ∈ path.drop root.length &&
      Text.lower (RelPath.suffix path.name) ∈ pageSuffixes)

theorem includeAdapterFile_eq (linkless : tree.Linkless) (root path : RelPath) :
    includeAdapterFile tree root path =
      ((contentAt? tree path).isSome && mayRead tree root path) := by
  unfold includeAdapterFile
  rw [isFileAt_eq linkless]
  cases read : (contentAt? tree path).isSome with
  | false => simp only [Bool.not_false, Bool.or_true, if_true, Bool.false_and]
  | true =>
      obtain ⟨content, read⟩ := Option.isSome_iff_exists.mp read
      obtain ⟨stat, found⟩ := (contentAt?_eq_some_iff linkless).mp read
      have located : includeAdapterPath tree root path =
          (resolveBelow tree root).isPrefixOf (resolveBelow tree path) := by
        rw [Bool.eq_iff_iff, includeAdapterPath_iff linkless, found]
        exact and_iff_right rfl
      rw [located, mayRead, Bool.true_and, Bool.not_true, Bool.or_false]
      dsimp only
      generalize (resolveBelow tree root).isPrefixOf (resolveBelow tree path) = inside
      generalize (path.drop root.length).any (· ∈ ignoredAdapterParts) = ignored
      cases inside <;> cases ignored <;> rfl

theorem includeAdapterFile_congr (firstLinkless : first.Linkless)
    (secondLinkless : second.Linkless) {root path : RelPath}
    (same : contentAt? first path = contentAt? second path) :
    includeAdapterFile first root path = includeAdapterFile second root path := by
  rw [includeAdapterFile_eq firstLinkless, includeAdapterFile_eq secondLinkless, same]
  simp only [mayRead, resolveBelow_congr firstLinkless secondLinkless]

/-- A file read in a page root with plain names is read from the root as well. -/
theorem includeAdapterFile_root (linkless : tree.Linkless) {pageRoot path : RelPath}
    (plain : ∀ part ∈ pageRoot, part ∉ ignoredHubRootNames) (within : pageRoot <+: path)
    (included : includeAdapterFile tree pageRoot path = true) :
    includeAdapterFile tree [] path = true := by
  obtain ⟨rest, rfl⟩ := within
  rw [includeAdapterFile_eq linkless, Bool.and_eq_true] at included ⊢
  obtain ⟨read, may⟩ := included
  refine ⟨read, ?_⟩
  obtain ⟨content, read⟩ := Option.isSome_iff_exists.mp read
  obtain ⟨stat, found⟩ := (contentAt?_eq_some_iff linkless).mp read
  have names : ∀ part ∈ pageRoot, part ∉ ignoredAdapterParts ∧ part ≠ (".vscode" : Text) := by
    intro part partIn
    simpa [ignoredHubRootNames] using plain part partIn
  have unhinted : (".vscode" : Text) ∉ pageRoot := fun hinted => (names _ hinted).2 rfl
  simp only [mayRead, List.length_nil, List.drop_zero, Bool.and_eq_true, List.drop_left] at may ⊢
  refine ⟨⟨?_, ?_⟩, ?_⟩
  · rw [resolveBelow_found linkless found, resolveBelow]
    simp
  · rw [List.any_append]
    have clean : pageRoot.any (· ∈ ignoredAdapterParts) = false := by
      rw [List.any_eq_false]
      intro part partIn
      simpa using (names part partIn).1
    rw [clean, Bool.false_or]
    exact may.1.2
  · simp only [List.mem_append, unhinted, false_or]
    exact may.2

/-! ## Files the signature covers -/

/-- The names of files the adapters look for: pages, sidecar graphs and configurations. -/
def isSourceFile (path : RelPath) : Bool :=
  isMarkdownName path || isPageFile path || graphJsonPath.isSuffixOf path ||
    path ∈ signatureRelativeFilenames || path.name ∈ signatureFilenames

/-- The files the adapters look for and the walk leaves out. -/
def isOverlooked (path : RelPath) : Bool :=
  (".runtime-logs" : Text) ∈ path || path.name = (".md" : Text)

omit [Host] in
/-- A Markdown name has the suffix of a page unless there is nothing before its dot. -/
theorem isPageFile_of_markdown {path : RelPath} (markdown : isMarkdownName path = true)
    (named : path.name ≠ (".md" : Text)) : isPageFile path = true := by
  obtain ⟨front, split⟩ := List.isSuffixOf_iff_suffix.mp markdown
  have nonempty : front ≠ [] := by
    rintro rfl
    exact named split.symm
  have suffixed : RelPath.suffix path.name = (".md" : Text) := by
    rw [← split]
    simp [RelPath.suffix, RelPath.nameSplits, Text.beforeLast, Text.afterLast, nonempty]
  rw [isPageFile, suffixed, Text.lower_ascii (by decide)]
  decide

theorem isSignedPath_of_included (linkless : tree.Linkless) {path : RelPath}
    (source : isSourceFile path = true) (seen : isOverlooked path = false)
    (included : includeAdapterFile tree [] path = true) : isSignedPath path = true := by
  rw [includeAdapterFile_eq linkless, mayRead] at included
  simp only [List.length_nil, List.drop_zero, Bool.and_eq_true, Bool.not_eq_true',
    List.any_eq_false, decide_eq_true_eq] at included
  obtain ⟨-, ⟨-, parts⟩, hinted⟩ := included
  simp only [isOverlooked, Bool.or_eq_false_iff, decide_eq_false_iff_not] at seen
  have unignored : ∀ part ∈ path, part ∉ ignoredSignatureParts := by
    intro part partIn ignored
    have cases : ∀ part ∈ ignoredSignatureParts,
        part ∈ ignoredAdapterParts ∨ part = (".runtime-logs" : Text) := by decide
    rcases cases part ignored with adapter | rfl
    · exact parts part partIn adapter
    · exact seen.1 partIn
  have entered : path.dropLast.all walkEnters = true := by
    rw [List.all_eq_true]
    intro part partIn
    have partIn := List.mem_of_mem_dropLast partIn
    have markers : ∀ part ∈ signatureMarkerNames, part ∈ ignoredAdapterParts := by decide
    simp only [walkEnters, Bool.and_eq_true, decide_eq_true_eq]
    exact ⟨unignored part partIn, fun marker => parts part partIn (markers part marker)⟩
  have nonempty : path ≠ [] := by
    rintro rfl
    have unnamed : isPageFile [] = false := by
      simp [isPageFile, RelPath.suffix, RelPath.nameSplits, RelPath.name, RelPath.nameIn,
        Text.lower, Text.lowerFrom, pageSuffixes]
    rw [isSourceFile, unnamed] at source
    exact absurd source (by decide)
  have clean : (path.any (· ∈ ignoredSignatureParts)) = false := by
    rw [List.any_eq_false]
    simpa using unignored
  simp only [isSignedPath, entered, nonempty, ne_eq, not_false_eq_true, decide_true, Bool.and_self,
    Bool.true_and]
  have plain : (FileTree.textFile 0 []).isSymlink = false := rfl
  have regular : (FileTree.textFile 0 []).isFile = true := rfl
  simp only [isSignatureFile, plain, regular, clean, Bool.not_true, Bool.or_self,
    Bool.false_eq_true, if_false]
  have suffixes : signatureSuffixes = pageSuffixes := rfl
  rw [suffixes]
  by_cases page : Text.lower (RelPath.suffix path.name) ∈ pageSuffixes
  · have unhinted : (".vscode" : Text) ∉ path := by
      intro hint
      rw [Bool.and_eq_false_iff, decide_eq_false_iff_not, decide_eq_false_iff_not] at hinted
      exact hinted.elim (fun unhinted => unhinted hint) fun unpaged => unpaged page
    rw [if_neg fun both => unhinted both.1, if_pos page]
  · have unpaged : isPageFile path = false := by simpa [isPageFile] using page
    have unmarked : isMarkdownName path = false := by
      by_contra markdown
      rw [Bool.not_eq_false] at markdown
      simp [isPageFile_of_markdown markdown seen.2] at unpaged
    simp only [isSourceFile, unmarked, unpaged, Bool.false_or, Bool.or_eq_true,
      decide_eq_true_eq] at source
    rw [if_neg fun both => page both.2, if_neg page]
    simp only [Bool.if_true_left, Bool.or_eq_true, decide_eq_true_eq]
    rcases source with (graph | configured) | configured
    · obtain ⟨front, rfl⟩ := List.isSuffixOf_iff_suffix.mp graph
      refine Or.inl ⟨?_, ?_⟩
      · simp [graphJsonPath, RelPath.name, RelPath.nameIn]
      · simp [graphJsonPath, RelPath.nameIn, List.dropLast_append_of_ne_nil]
    · exact Or.inr (Or.inr (Or.inl configured))
    · exact Or.inr (Or.inr (Or.inr configured))

/-! ## Listings -/

omit [Unicode] [Host] in
theorem isDirAt_of_below {directory : RelPath} {name : Text} {rest : RelPath} {node : Node}
    (found : tree.at? (directory ++ name :: rest) = some node) : isDirAt tree directory = true := by
  obtain ⟨root, rooted, located⟩ := Option.bind_eq_some_iff.mp found
  rw [Node.at?_append] at located
  obtain ⟨parent, parentFound, located⟩ := Option.bind_eq_some_iff.mp located
  obtain ⟨child, childFound, -⟩ := Option.bind_eq_some_iff.mp located
  have here : tree.at? directory = some parent := by
    rw [FileTree.at?, rooted, Option.bind_some, parentFound]
  unfold Node.child? at childFound
  split at childFound
  next stat children resolved => simp [isDirAt, here, Node.isDir, resolved]
  next => simp at childFound

omit [Unicode] [Host] in
theorem isPlainDir_eq (linkless : tree.Linkless) (path : RelPath) :
    isPlainDir tree path = isDirAt tree path := by
  unfold isPlainDir isDirAt
  cases found : tree.at? path with
  | none => rfl
  | some node => simp [linkless.at? found [] node rfl]

omit [Unicode] [Host] in
theorem mem_iterdir (linkless : tree.Linkless) {root : RelPath} {entry : Text × Node} :
    entry ∈ iterdir tree root ↔ tree.at? (root ++ [entry.1]) = some entry.2 := by
  unfold iterdir
  constructor
  · intro entryIn
    split at entryIn
    next stat children resolved =>
      obtain ⟨node, found, resolved⟩ := Option.bind_eq_some_iff.mp resolved
      rw [(linkless.at? found).resolve] at resolved
      obtain rfl := Option.some.inj resolved
      exact FileTree.at?_child found entryIn
    next => simp at entryIn
  · intro found
    obtain ⟨stat, children, here⟩ := (isDirAt_iff linkless).mp (isDirAt_of_below found)
    obtain ⟨top, rooted, located⟩ := Option.bind_eq_some_iff.mp here
    rw [here]
    have child : Keyed.get? children entry.1 = some entry.2 := by
      simpa [FileTree.at?, rooted, Node.at?_append, located, Node.at?, Node.child?] using found
    exact Keyed.mem_of_get? child

theorem contentAt?_of_included (linkless : tree.Linkless) {pageRoot path : RelPath}
    (included : includeAdapterFile tree pageRoot path = true) :
    ∃ stat content, tree.at? path = some (.file stat content) ∧
      contentAt? tree path = some content := by
  rw [includeAdapterFile_eq linkless, Bool.and_eq_true] at included
  obtain ⟨content, read⟩ := Option.isSome_iff_exists.mp included.1
  obtain ⟨stat, found⟩ := (contentAt?_eq_some_iff linkless).mp read
  exact ⟨stat, content, found, read⟩

/-- The files an adapter reads below a directory, with their paths below the root. -/
def readFiles (tree : FileTree) (accepts : RelPath → Bool) (scanRoot pageRoot : RelPath) :
    List (RelPath × Content) :=
  (rglob tree scanRoot).filterMap fun entry =>
    if accepts entry.1 && includeAdapterFile tree pageRoot entry.1 then
      (contentAt? tree entry.1).map fun content => (entry.1, content)
    else none

variable {accepts : RelPath → Bool} {scanRoot pageRoot : RelPath}

theorem adapterFiles_eq : adapterFiles tree accepts scanRoot pageRoot =
    (readFiles tree accepts scanRoot pageRoot).map fun file =>
      (file.1.drop pageRoot.length, file.2) := by
  rw [adapterFiles, readFiles, List.map_filterMap]
  congr 1
  funext entry
  split
  · rw [Option.map_map]
    rfl
  · rfl

theorem mem_readFiles (linkless : tree.Linkless) {file : RelPath × Content} :
    file ∈ readFiles tree accepts scanRoot pageRoot ↔
      (∃ name rest, file.1 = scanRoot ++ name :: rest) ∧ accepts file.1 = true ∧
        includeAdapterFile tree pageRoot file.1 = true ∧ contentAt? tree file.1 = some file.2 := by
  simp only [readFiles, List.mem_filterMap]
  constructor
  · rintro ⟨entry, entryIn, selected⟩
    split at selected
    next accepted =>
      obtain ⟨content, read, rfl⟩ := Option.map_eq_some_iff.mp selected
      obtain ⟨name, rest, shape, -⟩ := (mem_rglob linkless).mp entryIn
      obtain ⟨accepted, included⟩ := Bool.and_eq_true_iff.mp accepted
      exact ⟨⟨name, rest, shape⟩, accepted, included, read⟩
    next => simp at selected
  · rintro ⟨⟨name, rest, shape⟩, accepted, included, read⟩
    obtain ⟨stat, found⟩ := (contentAt?_eq_some_iff linkless).mp read
    refine ⟨(file.1, .file stat file.2), (mem_rglob linkless).mpr ⟨name, rest, shape, found⟩, ?_⟩
    simp [accepted, included, read]

theorem sorted_readFiles :
    (readFiles tree accepts scanRoot pageRoot).Pairwise fun first second => first.1 < second.1 := by
  have sorted : (rglob tree scanRoot).Pairwise fun first second => first.1 < second.1 :=
    List.pairwise_map.mp (sorted_rglob scanRoot)
  refine sorted.filterMap _ ?_
  intro first second less file selected other otherSelected
  split at selected
  next =>
    split at otherSelected
    next =>
      obtain ⟨content, -, rfl⟩ := Option.map_eq_some_iff.mp selected
      obtain ⟨otherContent, -, rfl⟩ := Option.map_eq_some_iff.mp otherSelected
      exact less
    next => simp at otherSelected
  next => simp at selected

/-- The trees agree on the accepted files that either adapter reads below a directory. -/
def AgreeBelow (first second : FileTree) (accepts : RelPath → Bool) (scanRoot pageRoot : RelPath) :
    Prop :=
  ∀ path, scanRoot <+: path → accepts path = true →
    (includeAdapterFile first pageRoot path = true ∨ includeAdapterFile second pageRoot path = true) →
    contentAt? first path = contentAt? second path

theorem adapterFiles_congr (firstLinkless : first.Linkless) (secondLinkless : second.Linkless)
    (agree : AgreeBelow first second accepts scanRoot pageRoot) :
    adapterFiles first accepts scanRoot pageRoot = adapterFiles second accepts scanRoot pageRoot := by
  have irreflexive : Std.Irrefl fun first second : RelPath × Content => first.1 < second.1 :=
    ⟨fun file => List.lt_irrefl file.1⟩
  rw [adapterFiles_eq, adapterFiles_eq]
  congr 1
  refine sorted_readFiles.eq_of_mem_iff sorted_readFiles fun file => ?_
  rw [mem_readFiles firstLinkless, mem_readFiles secondLinkless]
  refine and_congr_right fun below => and_congr_right fun accepted => ?_
  obtain ⟨name, rest, shape⟩ := below
  have within : scanRoot <+: file.1 := shape ▸ List.prefix_append _ _
  constructor
  · rintro ⟨included, read⟩
    have same := agree file.1 within accepted (Or.inl included)
    exact ⟨includeAdapterFile_congr firstLinkless secondLinkless same ▸ included, same ▸ read⟩
  · rintro ⟨included, read⟩
    have same := agree file.1 within accepted (Or.inr included)
    exact ⟨includeAdapterFile_congr firstLinkless secondLinkless same ▸ included, same ▸ read⟩

/-- There is a page to read below a directory. -/
def hasPages (tree : FileTree) (scanRoot pageRoot : RelPath) : Bool :=
  (rglob tree scanRoot).any fun entry =>
    isMarkdownName entry.1 && includeAdapterFile tree pageRoot entry.1

theorem hasPages_iff (linkless : tree.Linkless) : hasPages tree scanRoot pageRoot = true ↔
    ∃ name rest, isMarkdownName (scanRoot ++ name :: rest) = true ∧
      includeAdapterFile tree pageRoot (scanRoot ++ name :: rest) = true := by
  simp only [hasPages, List.any_eq_true, Bool.and_eq_true]
  constructor
  · rintro ⟨⟨path, node⟩, entryIn, markdown, included⟩
    obtain ⟨name, rest, rfl, -⟩ := (mem_rglob linkless).mp entryIn
    exact ⟨name, rest, markdown, included⟩
  · rintro ⟨name, rest, markdown, included⟩
    obtain ⟨stat, content, found, -⟩ := contentAt?_of_included linkless included
    exact ⟨(_, .file stat content), (mem_rglob linkless).mpr ⟨name, rest, rfl, found⟩, markdown,
      included⟩

theorem isDirAt_of_hasPages (linkless : tree.Linkless)
    (paged : hasPages tree scanRoot pageRoot = true) : isDirAt tree scanRoot = true := by
  obtain ⟨name, rest, -, included⟩ := (hasPages_iff linkless).mp paged
  obtain ⟨stat, content, found, -⟩ := contentAt?_of_included linkless included
  exact isDirAt_of_below found

/-! ## Trees with the same sources -/

def Searched (roots : List RelPath) (path : RelPath) : Prop := ∃ root ∈ roots, root <+: path

omit [Unicode] [Host] in
theorem Searched.below {roots : List RelPath} {path longer : RelPath}
    (searched : Searched roots path) (within : path <+: longer) : Searched roots longer := by
  obtain ⟨root, rootIn, reaches⟩ := searched
  exact ⟨root, rootIn, reaches.trans within⟩

/-- The walk signs a source file at the path, or the path is searched. -/
def Covered (roots : List RelPath) (path : RelPath) : Prop :=
  isOverlooked path = false ∨ Searched roots path

/-- The trees agree on the files that an adapter looks for and reads from either root, where they
are signed or searched. -/
def SameSources (roots : List RelPath) (first second : FileTree) : Prop :=
  ∀ path, isSourceFile path = true → Covered roots path →
    (includeAdapterFile first [] path = true ∨ includeAdapterFile second [] path = true) →
    contentAt? first path = contentAt? second path

/-- A path whose parts are no names that adapters skip. -/
def PlainRoot (path : RelPath) : Prop := ∀ part ∈ path, part ∉ ignoredHubRootNames

instance (path : RelPath) : Decidable (PlainRoot path) := by
  unfold PlainRoot
  infer_instance

omit [Unicode] [Host] in
theorem PlainRoot.append {path : RelPath} (plain : PlainRoot path) {name : Text}
    (named : name ∉ ignoredHubRootNames) : PlainRoot (path ++ [name]) := by
  intro part partIn
  rcases List.mem_append.mp partIn with here | last
  · exact plain part here
  · exact List.mem_singleton.mp last ▸ named

structure Comparison (roots : List RelPath) (first second : FileTree) : Prop where
  firstLinkless : first.Linkless
  secondLinkless : second.Linkless
  sources : SameSources roots first second

variable {roots : List RelPath}

namespace Comparison

variable (comparison : Comparison roots first second)

include comparison

theorem content {path : RelPath} (plain : PlainRoot pageRoot) (within : pageRoot <+: path)
    (source : isSourceFile path = true) (covered : Covered roots path)
    (included : includeAdapterFile first pageRoot path = true ∨
      includeAdapterFile second pageRoot path = true) :
    contentAt? first path = contentAt? second path :=
  comparison.sources path source covered (included.imp
    (includeAdapterFile_root comparison.firstLinkless plain within)
    (includeAdapterFile_root comparison.secondLinkless plain within))

theorem included {path : RelPath} (plain : PlainRoot pageRoot) (within : pageRoot <+: path)
    (source : isSourceFile path = true) (covered : Covered roots path) :
    includeAdapterFile first pageRoot path = includeAdapterFile second pageRoot path := by
  by_cases read : includeAdapterFile first pageRoot path = true ∨
      includeAdapterFile second pageRoot path = true
  · exact includeAdapterFile_congr comparison.firstLinkless comparison.secondLinkless
      (comparison.content plain within source covered read)
  · rw [not_or, Bool.not_eq_true, Bool.not_eq_true] at read
    rw [read.1, read.2]

theorem agreeBelow (sources : ∀ path, accepts path = true → isSourceFile path = true)
    (plain : PlainRoot pageRoot) (within : pageRoot <+: scanRoot)
    (searched : Searched roots scanRoot) :
    AgreeBelow first second accepts scanRoot pageRoot := fun path below accepted read =>
  comparison.content plain (within.trans below) (sources path accepted)
    (Or.inr (searched.below below)) read

theorem files (sources : ∀ path, accepts path = true → isSourceFile path = true)
    (plain : PlainRoot pageRoot) (within : pageRoot <+: scanRoot)
    (searched : Searched roots scanRoot) :
    adapterFiles first accepts scanRoot pageRoot = adapterFiles second accepts scanRoot pageRoot :=
  adapterFiles_congr comparison.firstLinkless comparison.secondLinkless
    (comparison.agreeBelow sources plain within searched)

theorem markdownFiles (plain : PlainRoot pageRoot) (within : pageRoot <+: scanRoot)
    (searched : Searched roots scanRoot) :
    adapterFiles first isMarkdownName scanRoot pageRoot =
      adapterFiles second isMarkdownName scanRoot pageRoot :=
  comparison.files (fun path markdown => by simp [isSourceFile, markdown]) plain within searched

theorem pages (plain : PlainRoot pageRoot) (within : pageRoot <+: scanRoot)
    (searched : Searched roots scanRoot) :
    hasPages first scanRoot pageRoot = hasPages second scanRoot pageRoot := by
  rw [Bool.eq_iff_iff, hasPages_iff comparison.firstLinkless,
    hasPages_iff comparison.secondLinkless]
  refine exists_congr fun name => exists_congr fun rest => and_congr_right fun markdown => ?_
  rw [comparison.included plain (within.trans (List.prefix_append _ _))
    (by simp [isSourceFile, markdown]) (Or.inr (searched.below (List.prefix_append _ _)))]

end Comparison

/-! ## LLMWiki roots -/

theorem hasTypedPages_eq (tree : FileTree) (root : RelPath) :
    (llmwikiRootSignals tree root).hasTypedPages =
      llmwikiTypedDirs.any fun name => includeAdapterDir tree root (root ++ [name]) &&
        hasPages tree (root ++ [name]) root := by
  rw [llmwikiRootSignals, List.any_filter]
  rfl

theorem mem_markdownNames (linkless : tree.Linkless) {root : RelPath} {name : Text} :
    name ∈ (llmwikiRootSignals tree root).markdownNames ↔
      ∃ file, Text.lower (RelPath.suffix file) = (".md" : Text) ∧
        includeAdapterFile tree root (root ++ [file]) = true ∧ Text.casefold file = name := by
  simp only [llmwikiRootSignals, List.mem_map, List.mem_filter, Bool.and_eq_true,
    decide_eq_true_eq]
  constructor
  · rintro ⟨entry, ⟨-, suffixed, included⟩, folded⟩
    exact ⟨entry.1, suffixed, included, folded⟩
  · rintro ⟨file, suffixed, included, folded⟩
    obtain ⟨stat, content, found, -⟩ := contentAt?_of_included linkless included
    exact ⟨(file, .file stat content), ⟨(mem_iterdir linkless).mpr found, suffixed, included⟩,
      folded⟩

/-- Signals that the checks of LLMWiki roots cannot tell apart. -/
structure LlmwikiSignals.Alike (first second : LlmwikiSignals) : Prop where
  marker : first.marker = second.marker
  names : ∀ name, name ∈ first.markdownNames ↔ name ∈ second.markdownNames
  typed : first.hasTypedPages = second.hasTypedPages

structure Probed (roots : List RelPath) (root : RelPath) : Prop where
  files : ∀ file, file ≠ (".md" : Text) → file ≠ (".runtime-logs" : Text) →
    Covered roots (root ++ [file])
  typed : ∀ name ∈ llmwikiTypedDirs, Searched roots (root ++ [name])

omit [Unicode] [Host] in
theorem Searched.probed {root : RelPath} (searched : Searched roots root) : Probed roots root where
  files _ _ _ := Or.inr (searched.below (List.prefix_append _ _))
  typed _ _ := searched.below (List.prefix_append _ _)

omit [Unicode] [Host] in
theorem probed_of_typed {root : RelPath} (unlogged : (".runtime-logs" : Text) ∉ root)
    (typed : ∀ name ∈ llmwikiTypedDirs, Searched roots (root ++ [name])) : Probed roots root where
  files file named kept := by
    left
    have named : RelPath.name (root ++ [file]) ≠ (".md" : Text) := by
      simpa [RelPath.name, RelPath.nameIn] using named
    have unlogged : (".runtime-logs" : Text) ∉ root ++ [file] := by
      simp only [List.mem_append, List.mem_singleton, not_or]
      exact ⟨unlogged, fun same => kept same.symm⟩
    rw [isOverlooked, decide_eq_false unlogged, decide_eq_false named, Bool.or_false]
  typed := typed

theorem Comparison.signals (comparison : Comparison roots first second) {root : RelPath}
    (plain : PlainRoot root) (probed : Probed roots root) :
    (llmwikiRootSignals first root).Alike (llmwikiRootSignals second root) where
  marker := comparison.included plain (List.prefix_append _ _) (by
      simp [isSourceFile, signatureFilenames, RelPath.name, RelPath.nameIn])
    (probed.files _ (by decide) (by decide))
  names name := by
    rw [mem_markdownNames comparison.firstLinkless, mem_markdownNames comparison.secondLinkless]
    refine exists_congr fun file => and_congr_right fun suffixed => ?_
    have source : isSourceFile (root ++ [file]) = true := by
      have page : isPageFile (root ++ [file]) = true := by
        simp [isPageFile, RelPath.name, RelPath.nameIn, suffixed, pageSuffixes]
      simp [isSourceFile, page]
    have suffixless : ∀ name : Text, RelPath.suffix name = [] → file ≠ name := by
      rintro _ none rfl
      simp [none, Text.lower, Text.lowerFrom] at suffixed
    rw [comparison.included plain (List.prefix_append _ _) source
      (probed.files file (suffixless _ (by decide)) (suffixless _ (by decide)))]
  typed := by
    rw [hasTypedPages_eq, hasTypedPages_eq, Bool.eq_iff_iff, List.any_eq_true, List.any_eq_true]
    refine exists_congr fun name => and_congr_right fun nameIn => ?_
    have same := comparison.pages plain (List.prefix_append root [name]) (probed.typed name nameIn)
    rw [← same]
    cases paged : hasPages first (root ++ [name]) root with
    | false => simp
    | true =>
        rw [includeAdapterDir_congr comparison.firstLinkless comparison.secondLinkless
          ((isDirAt_of_hasPages comparison.firstLinkless paged).trans
            (isDirAt_of_hasPages comparison.secondLinkless (same ▸ paged)).symm)]

theorem signals_of_not_dir (linkless : tree.Linkless) {root : RelPath}
    (missing : isDirAt tree root = false) : llmwikiRootSignals tree root = ⟨false, [], false⟩ := by
  have unread : ∀ name rest, includeAdapterFile tree root (root ++ name :: rest) = false := by
    intro name rest
    by_contra included
    rw [Bool.not_eq_false] at included
    obtain ⟨stat, content, found, -⟩ := contentAt?_of_included linkless included
    simp [isDirAt_of_below found] at missing
  have typed : (llmwikiRootSignals tree root).hasTypedPages = false := by
    rw [hasTypedPages_eq, List.any_eq_false]
    intro name _ paged
    obtain ⟨file, rest, -, included⟩ := (hasPages_iff linkless).mp (Bool.and_eq_true_iff.mp paged).2
    rw [List.append_assoc, List.singleton_append] at included
    simp [unread] at included
  have names : (llmwikiRootSignals tree root).markdownNames = [] := by
    rw [List.eq_nil_iff_forall_not_mem]
    intro name nameIn
    obtain ⟨file, -, included, -⟩ := (mem_markdownNames linkless).mp nameIn
    simp [unread] at included
  have marker : (llmwikiRootSignals tree root).marker = false := unread _ []
  generalize llmwikiRootSignals tree root = signals at marker names typed ⊢
  obtain ⟨_, _, _⟩ := signals
  subst marker names typed
  rfl

/-- The check of a directory called `name` by its signals. -/
def LlmwikiSignals.isMarkdownRoot (signals : LlmwikiSignals) (nested : Bool) (name : Text) : Bool :=
  let hasHub := signals.markdownNames.any (· ∈ llmwikiHubFiles)
  if signals.marker then true
  else if nested then hasHub || signals.hasTypedPages
  else if isNamedLlmwikiSourceRoot name signals.markdownNames then true
  else
    (("hot.md" : Text) ∈ signals.markdownNames &&
        (("index.md" : Text) ∈ signals.markdownNames ||
          ("overview.md" : Text) ∈ signals.markdownNames)) ||
      (hasHub && signals.hasTypedPages)

def LlmwikiSignals.isNestedRoot (signals : LlmwikiSignals) (name : Text) : Bool :=
  if signals.marker || signals.hasTypedPages then true
  else if isNamedLlmwikiSourceRoot name signals.markdownNames then true
  else 2 ≤ (llmwikiHubFiles.filter (· ∈ signals.markdownNames)).length

theorem isLlmwikiMarkdownRoot_eq (linkless : tree.Linkless) (nested : Bool) (root : RelPath) :
    isLlmwikiMarkdownRoot tree nested root =
      (llmwikiRootSignals tree root).isMarkdownRoot nested (RelPath.nameIn rootName root) := by
  unfold isLlmwikiMarkdownRoot
  rw [isPlainDir_eq linkless]
  cases found : isDirAt tree root with
  | true => rfl
  | false =>
      rw [signals_of_not_dir linkless found]
      cases nested <;> simp [LlmwikiSignals.isMarkdownRoot, isNamedLlmwikiSourceRoot]

theorem isProbableNestedLlmwikiSourceRoot_eq (linkless : tree.Linkless) (root : RelPath) :
    isProbableNestedLlmwikiSourceRoot tree root =
      (llmwikiRootSignals tree root).isNestedRoot (RelPath.nameIn rootName root) := by
  unfold isProbableNestedLlmwikiSourceRoot
  rw [isPlainDir_eq linkless]
  cases found : isDirAt tree root with
  | true => rfl
  | false =>
      rw [signals_of_not_dir linkless found]
      simp [LlmwikiSignals.isNestedRoot, isNamedLlmwikiSourceRoot]

omit [Unicode] [Host] in
theorem LlmwikiSignals.Alike.named {first second : LlmwikiSignals} (alike : first.Alike second)
    (name : Text) : decide (name ∈ first.markdownNames) = decide (name ∈ second.markdownNames) :=
  decide_eq_decide.mpr (alike.names name)

omit [Host] in
theorem LlmwikiSignals.Alike.namedRoot {first second : LlmwikiSignals} (alike : first.Alike second)
    (name : Text) : isNamedLlmwikiSourceRoot name first.markdownNames =
      isNamedLlmwikiSourceRoot name second.markdownNames := by
  rw [isNamedLlmwikiSourceRoot, isNamedLlmwikiSourceRoot, alike.named]

omit [Host] in
theorem LlmwikiSignals.Alike.markdownRoot {first second : LlmwikiSignals}
    (alike : first.Alike second) (nested : Bool) (name : Text) :
    first.isMarkdownRoot nested name = second.isMarkdownRoot nested name := by
  have hubs : first.markdownNames.any (· ∈ llmwikiHubFiles) =
      second.markdownNames.any (· ∈ llmwikiHubFiles) := by
    rw [Bool.eq_iff_iff]
    simp only [List.any_eq_true, alike.names]
  dsimp only [isMarkdownRoot]
  rw [hubs, alike.marker, alike.typed, alike.namedRoot, alike.named, alike.named, alike.named]

omit [Host] in
theorem LlmwikiSignals.Alike.nestedRoot {first second : LlmwikiSignals}
    (alike : first.Alike second) (name : Text) :
    first.isNestedRoot name = second.isNestedRoot name := by
  have hubs : llmwikiHubFiles.filter (· ∈ first.markdownNames) =
      llmwikiHubFiles.filter (· ∈ second.markdownNames) :=
    List.filter_congr fun name _ => alike.named name
  rw [isNestedRoot, isNestedRoot, hubs, alike.marker, alike.typed, alike.namedRoot]

/-- The directories examined for an LLMWiki root, up to the first that is one. -/
def examinedSourceRoots (tree : FileTree) : List RelPath :=
  if isLlmwikiMarkdownRoot tree true ["wiki"] then [["wiki"]]
  else if isLlmwikiMarkdownRoot tree true ["openwiki"] then [["wiki"], ["openwiki"]]
  else [["wiki"], ["openwiki"], []]

/-- The directories in which the examined ones are asked for pages. -/
def typedDirs (tree : FileTree) : List RelPath :=
  (examinedSourceRoots tree).flatMap fun root => llmwikiTypedDirs.map fun name => root ++ [name]

namespace Comparison

variable (comparison : Comparison roots first second)

include comparison

theorem markdownRoot {root : RelPath} (plain : PlainRoot root) (probed : Probed roots root)
    (nested : Bool) :
    isLlmwikiMarkdownRoot first nested root = isLlmwikiMarkdownRoot second nested root := by
  rw [isLlmwikiMarkdownRoot_eq comparison.firstLinkless,
    isLlmwikiMarkdownRoot_eq comparison.secondLinkless,
    (comparison.signals plain probed).markdownRoot]

theorem nestedRoot {root : RelPath} (plain : PlainRoot root) (probed : Probed roots root) :
    isProbableNestedLlmwikiSourceRoot first root = isProbableNestedLlmwikiSourceRoot second root := by
  rw [isProbableNestedLlmwikiSourceRoot_eq comparison.firstLinkless,
    isProbableNestedLlmwikiSourceRoot_eq comparison.secondLinkless,
    (comparison.signals plain probed).nestedRoot]

theorem sourceRoot (typed : ∀ directory ∈ typedDirs first, Searched roots directory) :
    llmwikiSourceRoot? first = llmwikiSourceRoot? second := by
  have probed : ∀ root ∈ examinedSourceRoots first, (".runtime-logs" : Text) ∉ root →
      Probed roots root := fun root rootIn unlogged =>
    probed_of_typed unlogged fun name nameIn =>
      typed _ (List.mem_flatMap.mpr ⟨root, rootIn, List.mem_map_of_mem nameIn⟩)
  have wiki := comparison.markdownRoot (by decide)
    (probed ["wiki"] (by unfold examinedSourceRoots; split_ifs <;> simp) (by decide)) true
  unfold llmwikiSourceRoot? llmwikiSourceRootNames
  simp only [List.find?_cons, List.find?_nil, ← wiki]
  cases isWiki : isLlmwikiMarkdownRoot first true ["wiki"] with
  | true => rfl
  | false =>
      have openwiki := comparison.markdownRoot (by decide) (probed ["openwiki"]
        (by unfold examinedSourceRoots; rw [isWiki]; split_ifs <;> simp_all) (by decide)) true
      rw [← openwiki]
      cases isOpenwiki : isLlmwikiMarkdownRoot first true ["openwiki"] with
      | true => rfl
      | false =>
          have top := comparison.markdownRoot (by decide) (probed []
            (by unfold examinedSourceRoots; rw [isWiki, isOpenwiki]; simp) (by decide)) false
          rw [top]

end Comparison

theorem isDirAt_of_nestedRoot {root : RelPath}
    (nested : isProbableNestedLlmwikiSourceRoot tree root = true) : isDirAt tree root = true := by
  unfold isProbableNestedLlmwikiSourceRoot at nested
  split at nested
  next => simp at nested
  next plain =>
    rw [Bool.not_eq_true', Bool.not_eq_false] at plain
    cases found : tree.at? root with
    | none => simp [isPlainDir, found] at plain
    | some node =>
        rw [isPlainDir, found, Option.any_some, Bool.and_eq_true] at plain
        simpa [isDirAt, found] using plain.1

/-- The hub roots without the check of the root, below which they lie. -/
theorem llmwikiHubSourceRoots_eq (linkless : tree.Linkless) (root : RelPath) :
    llmwikiHubSourceRoots tree root =
      (llmwikiSourceRootNames.filter fun name =>
        isLlmwikiMarkdownRoot tree true (root ++ [name])).map (fun name => [name]) ++
      (((iterdir tree root).filter fun entry =>
        entry.1 ∉ llmwikiSourceRootNames && entry.1 ∉ ignoredHubRootNames &&
          includeAdapterDir tree root (root ++ [entry.1]) &&
          isProbableNestedLlmwikiSourceRoot tree (root ++ [entry.1])).map Prod.fst).map
        fun name => [name] := by
  unfold llmwikiHubSourceRoots
  rw [isPlainDir_eq linkless, List.map_map]
  cases found : isDirAt tree root with
  | true => rfl
  | false =>
      have outside : ∀ name rest, tree.at? (root ++ name :: rest) = none := by
        intro name rest
        cases here : tree.at? (root ++ name :: rest) with
        | none => rfl
        | some node => simp [isDirAt_of_below here] at found
      have entries : iterdir tree root = [] := by
        rw [List.eq_nil_iff_forall_not_mem]
        intro entry entryIn
        simpa [outside] using (mem_iterdir linkless).mp entryIn
      have roots : ∀ name, isLlmwikiMarkdownRoot tree true (root ++ [name]) = false := by
        intro name
        simp [isLlmwikiMarkdownRoot, isPlainDir, outside]
      simp [entries, roots]

omit [Unicode] [Host] in
theorem sorted_iterdir (root : RelPath) : ((iterdir tree root).map Prod.fst).Pairwise (· < ·) := by
  unfold iterdir
  split
  next stat children resolved =>
    obtain ⟨node, found, resolved⟩ := Option.bind_eq_some_iff.mp resolved
    cases (FileTree.at?_wellFormed found).resolve resolved with
    | dir _ _ _ sorted _ => exact sorted
  next => exact List.Pairwise.nil

namespace Comparison

variable (comparison : Comparison roots first second)

include comparison

theorem hubRoots {root : RelPath} (plain : PlainRoot root) (searched : Searched roots root) :
    llmwikiHubSourceRoots first root = llmwikiHubSourceRoots second root := by
  have irreflexive : Std.Irrefl fun first second : Text => first < second := ⟨List.lt_irrefl⟩
  rw [llmwikiHubSourceRoots_eq comparison.firstLinkless,
    llmwikiHubSourceRoots_eq comparison.secondLinkless]
  congr 2
  · refine List.filter_congr fun name nameIn => ?_
    have named : ∀ name ∈ llmwikiSourceRootNames, name ∉ ignoredHubRootNames := by decide
    exact comparison.markdownRoot (plain.append (named name nameIn))
      (searched.below (List.prefix_append _ _)).probed true
  · refine List.Pairwise.eq_of_mem_iff (r := (· < ·))
      ((sorted_iterdir root).sublist (List.filter_sublist.map _))
      ((sorted_iterdir root).sublist (List.filter_sublist.map _)) fun name => ?_
    have selected : ∀ {tree : FileTree}, tree.Linkless →
        (name ∈ ((iterdir tree root).filter fun entry =>
          entry.1 ∉ llmwikiSourceRootNames && entry.1 ∉ ignoredHubRootNames &&
            includeAdapterDir tree root (root ++ [entry.1]) &&
            isProbableNestedLlmwikiSourceRoot tree (root ++ [entry.1])).map Prod.fst ↔
          name ∉ llmwikiSourceRootNames ∧ name ∉ ignoredHubRootNames ∧
            includeAdapterDir tree root (root ++ [name]) = true ∧
            isProbableNestedLlmwikiSourceRoot tree (root ++ [name]) = true) := by
      intro tree linkless
      simp only [List.mem_map, List.mem_filter, Bool.and_eq_true, decide_eq_true_eq]
      constructor
      · rintro ⟨entry, ⟨-, ⟨⟨unnamed, kept⟩, here⟩, nested⟩, rfl⟩
        exact ⟨unnamed, kept, here, nested⟩
      · rintro ⟨unnamed, kept, here, nested⟩
        obtain ⟨stat, children, found⟩ := (isDirAt_iff linkless).mp (isDirAt_of_nestedRoot nested)
        exact ⟨(name, .dir stat children), ⟨(mem_iterdir linkless).mpr found,
          ⟨⟨unnamed, kept⟩, here⟩, nested⟩, rfl⟩
    rw [selected comparison.firstLinkless, selected comparison.secondLinkless]
    refine and_congr_right fun _ => and_congr_right fun kept => ?_
    have same := comparison.nestedRoot (plain.append kept)
      (searched.below (List.prefix_append _ _)).probed
    rw [← same]
    refine and_congr_left fun nested => ?_
    rw [includeAdapterDir_congr comparison.firstLinkless comparison.secondLinkless
      ((isDirAt_of_nestedRoot nested).trans (isDirAt_of_nestedRoot (same ▸ nested)).symm)]

end Comparison

end Reading

end LlmWikiServe
