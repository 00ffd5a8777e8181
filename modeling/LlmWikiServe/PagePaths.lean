import LlmWikiServe.ReadAgreement

/-!
# Paths of pages

A loaded page has the path of the file it was read from.  A file is read once per directory that
is scanned, and only a Dendron workspace scans directories which may contain each other.
-/

namespace LlmWikiServe

/-! ## Posix paths -/

theorem asPosix_injective {first second : RelPath} (firstValid : ∀ part ∈ first, validName part)
    (secondValid : ∀ part ∈ second, validName part)
    (same : RelPath.asPosix first = RelPath.asPosix second) : first = second := by
  have parts : ∀ path : RelPath, path ≠ [] → (∀ part ∈ path, validName part) →
      Text.splitOn '/' (RelPath.asPosix path) = path := by
    intro path nonempty valid
    rw [RelPath.asPosix, if_neg nonempty]
    exact List.splitOn_intercalate '/' (fun part partIn => (valid part partIn).2.1) nonempty
  have notDot : ∀ path : RelPath, path ≠ [] → (∀ part ∈ path, validName part) →
      RelPath.asPosix path ≠ RelPath.asPosix [] := by
    intro path nonempty valid dotted
    have single := parts path nonempty valid
    rw [dotted] at single
    have dotIn : ("." : Text) ∈ path := by
      rw [← single]
      decide
    exact (valid _ dotIn).2.2.2.1 rfl
  by_cases firstEmpty : first = []
  · by_contra differ
    subst firstEmpty
    exact notDot second (Ne.symm differ) secondValid same.symm
  · by_cases secondEmpty : second = []
    · subst secondEmpty
      exact absurd same (notDot first firstEmpty firstValid)
    · rw [← parts first firstEmpty firstValid, same, parts second secondEmpty secondValid]

/-! ## Entries below a directory -/

namespace Node

/-- No symbolic link lies below a node, nor is it one. -/
def Linkless (node : Node) : Prop :=
  ∀ path found, node.at? path = some found → found.isSymlink = false

variable {node : Node}

theorem Linkless.resolve (linkless : node.Linkless) : node.resolve = some node := by
  have plain : node.isSymlink = false := linkless [] node rfl
  cases node with
  | link location target => simp [isSymlink] at plain
  | dangling location => simp [isSymlink] at plain
  | _ => rfl

theorem Linkless.child {stat : Stat} {children : Children} {name : Text} {child : Node}
    (linkless : (dir stat children).Linkless) (found : Keyed.get? children name = some child) :
    child.Linkless := by
  intro path below located
  apply linkless (name :: path)
  simpa [at?, child?, found] using located

theorem linkless_file (stat : Stat) (content : Content) : (file stat content).Linkless := by
  intro path found located
  cases path with
  | nil => exact Option.some.inj located ▸ rfl
  | cons name rest => simp [at?, child?] at located

theorem linkless_dir {stat : Stat} {children : Children}
    (entries : ∀ entry ∈ children, entry.2.Linkless) : (dir stat children).Linkless := by
  intro path found located
  cases path with
  | nil => exact Option.some.inj located ▸ rfl
  | cons name rest =>
      simp only [at?, child?, resolve_dir, Option.bind_eq_some_iff] at located
      obtain ⟨child, childFound, located⟩ := located
      exact entries _ (Keyed.mem_of_get? childFound) rest found located

theorem validName_of_at? {path : RelPath} {found : Node} (valid : node.WellFormed)
    (located : node.at? path = some found) : ∀ part ∈ path, validName part := by
  induction path generalizing node with
  | nil => simp
  | cons name rest inductionHypothesis =>
      simp only [at?, Option.bind_eq_some_iff] at located
      obtain ⟨child, childFound, located⟩ := located
      unfold child? at childFound
      split at childFound
      next stat children resolved =>
        have entryIn := Keyed.mem_of_get? childFound
        cases valid.resolve resolved with
        | dir _ _ names _ nodes =>
            rw [List.forall_mem_cons]
            exact ⟨names name (List.mem_map_of_mem entryIn),
              inductionHypothesis (nodes _ entryIn) located⟩
      next => simp at childFound

theorem descendantsOf_eq (path : RelPath) (children : Children) :
    descendantsOf path children = children.flatMap fun entry =>
      (path ++ [entry.1], entry.2) :: descendants (path ++ [entry.1]) entry.2 := by
  induction children with
  | nil => rfl
  | cons entry rest inductionHypothesis =>
      rw [List.flatMap_cons, ← inductionHypothesis]
      rfl

theorem WellFormed.distinct {stat : Stat} {children : Children}
    (valid : (Node.dir stat children).WellFormed) : (children.map Prod.fst).Nodup := by
  cases valid with
  | dir _ _ _ sorted _ =>
      exact sorted.imp fun less same => absurd (same ▸ less) (List.lt_irrefl _)

/-- The entries below a node are those at the paths that go on from it. -/
theorem mem_descendants (valid : node.WellFormed) (linkless : node.Linkless) {path : RelPath}
    {entry : RelPath × Node} :
    entry ∈ node.descendants path ↔
      ∃ name rest, entry.1 = path ++ name :: rest ∧ node.at? (name :: rest) = some entry.2 := by
  induction valid generalizing path with
  | file stat content => simp [descendants, at?, child?]
  | dir stat children names sorted nodes inductionHypothesis =>
      have distinct := (WellFormed.dir stat children names sorted nodes).distinct
      have below : ∀ child ∈ children, ∀ name rest,
          child.1 = name → ((dir stat children).at? (name :: rest) = child.2.at? rest) := by
        rintro child childIn name rest rfl
        simp [at?, child?, Keyed.get?_of_mem distinct childIn]
      have linklessChild : ∀ child ∈ children, child.2.Linkless := fun child childIn =>
        linkless.child (Keyed.get?_of_mem distinct childIn)
      rw [descendants, descendantsOf_eq, List.mem_flatMap]
      constructor
      · rintro ⟨child, childIn, entryIn⟩
        rcases List.mem_cons.mp entryIn with rfl | later
        · exact ⟨child.1, [], rfl, below child childIn child.1 [] rfl⟩
        · obtain ⟨name, rest, shape, located⟩ :=
            (inductionHypothesis child childIn (linklessChild child childIn)).mp later
          refine ⟨child.1, name :: rest, ?_, ?_⟩
          · rw [shape, List.append_assoc]
            rfl
          · rw [below child childIn child.1 _ rfl, located]
      · rintro ⟨name, rest, shape, located⟩
        simp only [at?, child?, resolve_dir, Option.bind_eq_some_iff] at located
        obtain ⟨child, childFound, located⟩ := located
        have childIn := Keyed.mem_of_get? childFound
        refine ⟨(name, child), childIn, ?_⟩
        cases rest with
        | nil =>
            obtain rfl : child = entry.2 := Option.some.inj located
            exact List.mem_cons.mpr (Or.inl (Prod.ext shape rfl))
        | cons next others =>
            apply List.mem_cons_of_mem
            apply (inductionHypothesis (name, child) childIn (linklessChild _ childIn)).mpr
            refine ⟨next, others, ?_, located⟩
            rw [shape, List.append_assoc]
            rfl
  | link location target => exact absurd (linkless [] _ rfl) (by simp [isSymlink])
  | dangling location => exact absurd (linkless [] _ rfl) (by simp [isSymlink])
  | special stat => simp [descendants, at?, child?]

theorem exists_of_mem_descendants (valid : node.WellFormed) {path : RelPath}
    {entry : RelPath × Node} (entryIn : entry ∈ node.descendants path) :
    ∃ name rest, entry.1 = path ++ name :: rest := by
  induction valid generalizing path with
  | dir stat children names sorted nodes inductionHypothesis =>
      rw [descendants, descendantsOf_eq, List.mem_flatMap] at entryIn
      obtain ⟨child, childIn, entryIn⟩ := entryIn
      rcases List.mem_cons.mp entryIn with rfl | later
      · exact ⟨child.1, [], rfl⟩
      · obtain ⟨name, rest, shape⟩ := inductionHypothesis child childIn later
        exact ⟨child.1, name :: rest, by simp [shape]⟩
  | _ => simp [descendants] at entryIn

/-- The entries below a node are listed in the order of their paths. -/
theorem sorted_descendants (valid : node.WellFormed) (path : RelPath) :
    ((node.descendants path).map Prod.fst).Pairwise (· < ·) := by
  induction valid generalizing path with
  | dir stat children names sorted nodes inductionHypothesis =>
      have starts : ∀ child ∈ children, ∀ place ∈
          ((path ++ [child.1], child.2) :: descendants (path ++ [child.1]) child.2).map Prod.fst,
          ∃ rest, place = path ++ child.1 :: rest := by
        intro child childIn place placeIn
        simp only [List.map_cons, List.mem_cons, List.mem_map] at placeIn
        rcases placeIn with rfl | ⟨entry, entryIn, rfl⟩
        · exact ⟨[], rfl⟩
        · obtain ⟨name, rest, shape⟩ := exists_of_mem_descendants (nodes child childIn) entryIn
          exact ⟨name :: rest, by simp [shape]⟩
      rw [descendants, descendantsOf_eq, List.map_flatMap, List.pairwise_flatMap]
      constructor
      · intro child childIn
        rw [List.map_cons, List.pairwise_cons]
        refine ⟨fun place placeIn => ?_, inductionHypothesis child childIn _⟩
        obtain ⟨entry, entryIn, rfl⟩ := List.mem_map.mp placeIn
        obtain ⟨name, rest, shape⟩ := exists_of_mem_descendants (nodes child childIn) entryIn
        rw [shape]
        simpa using @List.append_left_lt _ _ (path ++ [child.1]) _ _ (List.nil_lt_cons name rest)
      · refine (List.pairwise_map.mp sorted).imp_of_mem fun {first second} firstIn secondIn less => ?_
        intro place placeIn other otherIn
        obtain ⟨rest, rfl⟩ := starts first firstIn place placeIn
        obtain ⟨others, rfl⟩ := starts second secondIn other otherIn
        exact List.append_left_lt (List.cons_lt_cons_iff.mpr (Or.inl less))
  | _ => simp [descendants]

end Node

/-! ## Files of a tree -/

/-- There is no symbolic link in the tree. -/
def FileTree.Linkless (tree : FileTree) : Prop := ∀ root, tree.root = some root → root.Linkless

section Trees

variable {tree : FileTree}

theorem FileTree.Linkless.at? (linkless : tree.Linkless) {path : RelPath} {node : Node}
    (found : tree.at? path = some node) : node.Linkless := by
  obtain ⟨root, rooted, located⟩ := Option.bind_eq_some_iff.mp found
  intro rest below belowFound
  apply linkless root rooted (path ++ rest)
  rw [Node.at?_append, located, Option.bind_some, belowFound]

theorem FileTree.validName_of_at? {path : RelPath} {node : Node}
    (found : tree.at? path = some node) : ∀ part ∈ path, validName part := by
  obtain ⟨root, rooted, located⟩ := Option.bind_eq_some_iff.mp found
  exact Node.validName_of_at? (tree.wellFormed root rooted) located

theorem mem_rglob (linkless : tree.Linkless) {scanRoot : RelPath} {entry : RelPath × Node} :
    entry ∈ rglob tree scanRoot ↔
      ∃ name rest, entry.1 = scanRoot ++ name :: rest ∧ tree.at? entry.1 = some entry.2 := by
  unfold rglob
  cases found : tree.at? scanRoot with
  | none =>
      suffices ∀ name rest, tree.at? (scanRoot ++ name :: rest) = none by
        simp only [Option.bind_none, List.not_mem_nil, false_iff, not_exists]
        rintro name rest ⟨shape, located⟩
        simp [shape, this] at located
      intro name rest
      cases rooted : tree.root with
      | none => simp [FileTree.at?, rooted]
      | some root =>
          have missing : root.at? scanRoot = none := by simpa [FileTree.at?, rooted] using found
          simp [FileTree.at?, rooted, Node.at?_append, missing]
  | some node =>
      have below : ∀ rest, tree.at? (scanRoot ++ rest) = node.at? rest := by
        intro rest
        obtain ⟨root, rooted, located⟩ := Option.bind_eq_some_iff.mp found
        simp [FileTree.at?, rooted, Node.at?_append, located]
      rw [Option.bind_some, (linkless.at? found).resolve]
      refine (Node.mem_descendants (FileTree.at?_wellFormed found) (linkless.at? found)).trans ?_
      constructor
      · rintro ⟨name, rest, shape, located⟩
        exact ⟨name, rest, shape, by rw [shape, below, located]⟩
      · rintro ⟨name, rest, shape, located⟩
        exact ⟨name, rest, shape, by rw [← below, ← shape, located]⟩

/-- `sorted` leaves nothing to do. -/
theorem sorted_rglob (scanRoot : RelPath) :
    ((rglob tree scanRoot).map Prod.fst).Pairwise (· < ·) := by
  unfold rglob
  split
  next node found =>
    obtain ⟨here, located, followed⟩ := Option.bind_eq_some_iff.mp found
    exact Node.sorted_descendants ((FileTree.at?_wellFormed located).resolve followed) scanRoot
  next => exact List.Pairwise.nil

theorem nodup_rglob (scanRoot : RelPath) : ((rglob tree scanRoot).map Prod.fst).Nodup :=
  (sorted_rglob scanRoot).imp fun less same => absurd (same ▸ less) (List.lt_irrefl _)

section Files

variable [Unicode] [Host] {accepts : RelPath → Bool} {scanRoot pageRoot : RelPath}

theorem includeAdapterFile_isFile {path : RelPath}
    (included : includeAdapterFile tree pageRoot path = true) :
    ∃ node, tree.at? path = some node ∧ node.isSymlink = false ∧ node.isFile = true := by
  unfold includeAdapterFile at included
  split at included
  next => simp at included
  next rejected =>
    simp only [Bool.or_eq_true, Bool.not_eq_true', not_or, Bool.not_eq_false] at rejected
    obtain ⟨pathIncluded, regular⟩ := rejected
    unfold includeAdapterPath at pathIncluded
    unfold isFileAt at regular
    split at pathIncluded
    next => simp at pathIncluded
    next node found =>
      simp only [Bool.and_eq_true, Bool.not_eq_true'] at pathIncluded
      exact ⟨node, found, pathIncluded.1.2, by simpa [found] using regular⟩

theorem mem_adapterFiles (linkless : tree.Linkless) {place : RelPath} :
    place ∈ (adapterFiles tree accepts scanRoot pageRoot).map Prod.fst ↔
      ∃ path, scanRoot <+: path ∧ path ≠ scanRoot ∧ accepts path = true ∧
        includeAdapterFile tree pageRoot path = true ∧ place = path.drop pageRoot.length := by
  simp only [adapterFiles, List.map_filterMap, List.mem_filterMap]
  constructor
  · rintro ⟨entry, entryIn, selected⟩
    split at selected
    next accepted =>
      obtain ⟨name, rest, shape, -⟩ := (mem_rglob linkless).mp entryIn
      obtain ⟨accepted, included⟩ := Bool.and_eq_true_iff.mp accepted
      refine ⟨entry.1, shape ▸ List.prefix_append _ _, by simp [shape], accepted, included, ?_⟩
      simp only [Option.map_map, Option.map_eq_some_iff] at selected
      obtain ⟨content, -, rfl⟩ := selected
      rfl
    next => simp at selected
  · rintro ⟨path, ⟨rest, rfl⟩, proper, accepted, included, rfl⟩
    obtain ⟨node, found, plain, regular⟩ := includeAdapterFile_isFile included
    obtain ⟨stat, content, rfl⟩ := Node.eq_file_of_not_symlink regular plain
    refine ⟨(scanRoot ++ rest, .file stat content), ?_, ?_⟩
    · cases rest with
      | nil => simp at proper
      | cons name others => exact (mem_rglob linkless).mpr ⟨name, others, rfl, found⟩
    · simp [accepted, included, contentAt?, found]

theorem nodup_adapterFiles (linkless : tree.Linkless) (within : pageRoot <+: scanRoot) :
    ((adapterFiles tree accepts scanRoot pageRoot).map Prod.fst).Nodup := by
  have apart := List.pairwise_map.mp (@nodup_rglob tree scanRoot)
  rw [adapterFiles, List.map_filterMap]
  refine List.Pairwise.filterMap _ ?_ (apart.imp_of_mem (S := fun first second =>
    first.1.drop pageRoot.length ≠ second.1.drop pageRoot.length) ?_)
  · intro first second differ place placeIn other otherIn
    have dropped : ∀ entry : RelPath × Node, ∀ place, Option.map Prod.fst
        (if accepts entry.1 && includeAdapterFile tree pageRoot entry.1 then
          (contentAt? tree entry.1).map fun content => (entry.1.drop pageRoot.length, content)
        else none) = some place → place = entry.1.drop pageRoot.length := by
      intro entry place selected
      split at selected
      next =>
        simp only [Option.map_map, Option.map_eq_some_iff] at selected
        obtain ⟨content, -, rfl⟩ := selected
        rfl
      next => simp at selected
    rw [dropped first place placeIn, dropped second other otherIn]
    exact differ
  · intro first second firstIn secondIn differ same
    have whole : ∀ entry ∈ rglob tree scanRoot,
        entry.1 = pageRoot ++ entry.1.drop pageRoot.length := by
      intro entry entryIn
      obtain ⟨name, rest, shape, -⟩ := (mem_rglob linkless).mp entryIn
      obtain ⟨middle, rfl⟩ := within
      simp [shape]
    apply differ
    rw [whole first firstIn, whole second secondIn, same]

/-- The paths under which the files below a scanned directory are served. -/
def scanPaths (tree : FileTree) (accepts : RelPath → Bool) (scanRoot pageRoot : RelPath) :
    List Text :=
  (adapterFiles tree accepts scanRoot pageRoot).map fun file => RelPath.asPosix file.1

theorem scanPaths_eq : scanPaths tree accepts scanRoot pageRoot =
    ((adapterFiles tree accepts scanRoot pageRoot).map Prod.fst).map RelPath.asPosix := by
  rw [List.map_map]
  rfl

theorem mem_scanPaths (linkless : tree.Linkless) {served : Text} :
    served ∈ scanPaths tree accepts scanRoot pageRoot ↔
      ∃ path, scanRoot <+: path ∧ path ≠ scanRoot ∧ accepts path = true ∧
        includeAdapterFile tree pageRoot path = true ∧
        served = RelPath.asPosix (path.drop pageRoot.length) := by
  have files := @mem_adapterFiles tree _ _ accepts scanRoot pageRoot linkless
  unfold scanPaths
  rw [List.mem_map]
  constructor
  · rintro ⟨file, fileIn, rfl⟩
    obtain ⟨path, starts, proper, accepted, included, same⟩ :=
      files.mp (List.mem_map_of_mem fileIn)
    exact ⟨path, starts, proper, accepted, included, by rw [same]⟩
  · rintro ⟨path, starts, proper, accepted, included, rfl⟩
    obtain ⟨file, fileIn, same⟩ :=
      List.mem_map.mp (files.mpr ⟨path, starts, proper, accepted, included, rfl⟩)
    exact ⟨file, fileIn, by rw [same]⟩

/-- Written out, the paths of files that are read still differ. -/
theorem drop_eq_of_asPosix {first second : RelPath}
    (firstIncluded : includeAdapterFile tree pageRoot first = true)
    (secondIncluded : includeAdapterFile tree pageRoot second = true)
    (same : RelPath.asPosix (first.drop pageRoot.length) =
      RelPath.asPosix (second.drop pageRoot.length)) :
    first.drop pageRoot.length = second.drop pageRoot.length := by
  have valid : ∀ path, includeAdapterFile tree pageRoot path = true →
      ∀ part ∈ path.drop pageRoot.length, validName part := by
    intro path included part partIn
    obtain ⟨node, found, -⟩ := includeAdapterFile_isFile included
    exact FileTree.validName_of_at? found part (List.mem_of_mem_drop partIn)
  exact asPosix_injective (valid first firstIncluded) (valid second secondIncluded) same

theorem nodup_scanPaths (linkless : tree.Linkless) (within : pageRoot <+: scanRoot) :
    (scanPaths tree accepts scanRoot pageRoot).Nodup := by
  have distinct := @nodup_adapterFiles tree _ _ accepts _ _ linkless within
  rw [scanPaths_eq]
  refine distinct.map_on fun first firstIn second secondIn same => ?_
  obtain ⟨firstPath, -, -, -, firstIncluded, rfl⟩ := (mem_adapterFiles linkless).mp firstIn
  obtain ⟨secondPath, -, -, -, secondIncluded, rfl⟩ := (mem_adapterFiles linkless).mp secondIn
  exact drop_eq_of_asPosix firstIncluded secondIncluded same

/-- Two scans share a path exactly when a file lies below both directories. -/
theorem disjoint_scanPaths_iff (linkless : tree.Linkless) {outer inner : RelPath} :
    (scanPaths tree accepts outer []).Disjoint (scanPaths tree accepts inner []) ↔
      ∀ path, outer <+: path → path ≠ outer → inner <+: path → path ≠ inner →
        accepts path = true → includeAdapterFile tree [] path = false := by
  constructor
  · intro apart path outerStart outerProper innerStart innerProper accepted
    by_contra included
    rw [Bool.not_eq_false] at included
    exact apart
      ((mem_scanPaths linkless).mpr ⟨path, outerStart, outerProper, accepted, included, rfl⟩)
      ((mem_scanPaths linkless).mpr ⟨path, innerStart, innerProper, accepted, included, rfl⟩)
  · intro excluded served inOuter inInner
    obtain ⟨path, outerStart, outerProper, accepted, included, rfl⟩ :=
      (mem_scanPaths linkless).mp inOuter
    obtain ⟨other, innerStart, innerProper, -, otherIncluded, same⟩ :=
      (mem_scanPaths linkless).mp inInner
    obtain rfl : path = other := drop_eq_of_asPosix included otherIncluded same
    simp [excluded path outerStart outerProper innerStart innerProper accepted] at included

end Files

end Trees

/-! ## Pages of one scan -/

theorem map_of_mapM_ok {α β γ : Type} {action : α → Except LoadError β} {inputs : List α}
    {outputs : List β} {left : β → γ} {right : α → γ}
    (agree : ∀ input output, action input = .ok output → left output = right input)
    (succeeded : inputs.mapM action = .ok outputs) : outputs.map left = inputs.map right := by
  induction inputs generalizing outputs with
  | nil =>
      obtain rfl : [] = outputs := Except.ok.inj succeeded
      rfl
  | cons head tail inductionHypothesis =>
      rw [List.mapM_cons, bind_eq_ok] at succeeded
      obtain ⟨first, headDone, succeeded⟩ := succeeded
      obtain ⟨others, tailDone, succeeded⟩ := bind_eq_ok.mp succeeded
      obtain rfl : first :: others = outputs := Except.ok.inj succeeded
      rw [List.map_cons, List.map_cons, agree head first headDone, inductionHypothesis tailDone]

def DistinctPaths (pages : List WikiPage) : Prop := (pages.map WikiPage.path).Nodup

section Pages

variable [Unicode] [Interpreter] [Documents] [Host] {tree : FileTree} {loaded : LoadedWiki}

theorem parseMarkdownPages_paths {options : PageOptions} {scanRoot pageRoot : RelPath}
    {pages : List WikiPage}
    (parsed : parseMarkdownPages tree options scanRoot pageRoot = .ok pages) :
    pages.map WikiPage.path = scanPaths tree isMarkdownName scanRoot pageRoot :=
  map_of_mapM_ok (fun _ _ made => parsePage_path made) parsed

theorem parseMarkdownPages_distinct (linkless : tree.Linkless) {options : PageOptions}
    {scanRoot pageRoot : RelPath} (within : pageRoot <+: scanRoot) {pages : List WikiPage}
    (parsed : parseMarkdownPages tree options scanRoot pageRoot = .ok pages) :
    DistinctPaths pages := by
  rw [DistinctPaths, parseMarkdownPages_paths parsed]
  exact nodup_scanPaths linkless within

theorem loadMarkdown_distinct (linkless : tree.Linkless) {name implementation : Text}
    (succeeded : loadMarkdown name implementation tree = .ok loaded) :
    DistinctPaths loaded.pages := by
  simp only [loadMarkdown, bind_eq_ok] at succeeded
  obtain ⟨pages, parsed, edges, -, made⟩ := succeeded
  rw [← Except.ok.inj made, loadedFrom_pages]
  exact parseMarkdownPages_distinct linkless List.prefix_rfl parsed

theorem okfV02_distinct (linkless : tree.Linkless)
    (succeeded : okfV02Adapter.load tree = .ok loaded) : DistinctPaths loaded.pages := by
  simp only [okfV02Adapter] at succeeded
  split at succeeded
  next => simp [bind, Except.bind] at succeeded
  next =>
    simp only [bind_eq_ok] at succeeded
    obtain ⟨pages, parsed, edges, -, made⟩ := succeeded
    rw [← Except.ok.inj made, loadedFrom_pages]
    simp only [parseOkfV02Pages, bind_eq_ok] at parsed
    obtain ⟨parsedPages, parsed, same⟩ := parsed
    have same : parsedPages = pages := by
      split at same
      next => simp [okfError, bind, Except.bind] at same
      next => exact Except.ok.inj same
    subst same
    rw [DistinctPaths, map_of_mapM_ok (fun file page made => parseOkfV02Page_path made) parsed]
    exact (nodup_scanPaths linkless List.prefix_rfl).sublist (List.filter_sublist.map _)

theorem logseq_distinct (linkless : tree.Linkless)
    (succeeded : logseqAdapter.load tree = .ok loaded) : DistinctPaths loaded.pages := by
  simp only [logseqAdapter, bind_eq_ok] at succeeded
  obtain ⟨pages, parsed, edges, -, made⟩ := succeeded
  rw [← Except.ok.inj made, loadedFrom_pages, DistinctPaths,
    map_of_mapM_ok (fun file page made => parsePage_path made) parsed, List.map_flatMap]
  rw [List.nodup_flatMap]
  constructor
  · intro scanRoot _
    exact nodup_scanPaths linkless List.nil_prefix
  · have apart : [[("pages" : Text)], [("journals" : Text)]].Pairwise fun first second : RelPath =>
        ∀ path, first <+: path → ¬ second <+: path := by
      simp only [List.pairwise_cons, List.mem_singleton, forall_eq, List.not_mem_nil,
        List.Pairwise.nil, and_true, false_imp_iff, implies_true]
      rintro path ⟨front, rfl⟩ ⟨back, same⟩
      simp at same
    refine (apart.sublist List.filter_sublist).imp fun {first second} apart => ?_
    apply (disjoint_scanPaths_iff linkless).mpr
    intro path firstStart _ secondStart
    exact absurd secondStart (apart path firstStart)

theorem quartz_distinct (linkless : tree.Linkless)
    (succeeded : quartzAdapter.load tree = .ok loaded) : DistinctPaths loaded.pages := by
  unfold quartzAdapter at succeeded
  obtain ⟨pages, parsed, succeeded⟩ := bind_eq_ok.mp succeeded
  obtain ⟨-, -, succeeded⟩ := bind_eq_ok.mp succeeded
  obtain ⟨edges, -, made⟩ := bind_eq_ok.mp succeeded
  obtain rfl := Except.ok.inj made
  exact parseMarkdownPages_distinct linkless List.prefix_rfl parsed

theorem llmWikiMarkdown_distinct (linkless : tree.Linkless)
    (succeeded : llmWikiMarkdownAdapter.load tree = .ok loaded) : DistinctPaths loaded.pages := by
  unfold llmWikiMarkdownAdapter at succeeded
  obtain ⟨pages, parsed, succeeded⟩ := bind_eq_ok.mp succeeded
  obtain ⟨edges, -, made⟩ := bind_eq_ok.mp succeeded
  rw [← Except.ok.inj made, loadedFrom_pages]
  exact parseMarkdownPages_distinct linkless List.prefix_rfl parsed

/-! ## Dendron workspaces -/

def HoldsPage (tree : FileTree) (directory : RelPath) : Prop :=
  ∃ path, directory <+: path ∧ path ≠ directory ∧ isMarkdownName path = true ∧
    includeAdapterFile tree [] path = true

/-- A configured vault that lies in another one holds no page. -/
def VaultsApart (tree : FileTree) : Prop :=
  ∀ roots count, dendronSourceRoots tree = .ok (roots, count) →
    ∀ outer ∈ roots, ∀ inner ∈ roots, outer ≠ inner → outer <+: inner → ¬ HoldsPage tree inner

omit [Unicode] [Interpreter] [Documents] [Host] in
theorem nodup_firstWins_id {Entry : Type} [DecidableEq Entry] (entries : List Entry) :
    (Keyed.firstWins id entries).Nodup := by
  simpa using Keyed.nodup_map_firstWins id entries

omit [Interpreter] in
/-- The vaults found are different directories, no more than are configured. -/
theorem dendronSourceRoots_facts {roots : List RelPath} {count : Nat}
    (succeeded : dendronSourceRoots tree = .ok (roots, count)) :
    roots.Nodup ∧ roots.length ≤ count := by
  unfold dendronSourceRoots at succeeded
  split at succeeded
  next =>
    obtain ⟨rfl, rfl⟩ := Prod.mk.inj (Except.ok.inj succeeded)
    simp
  next =>
    split at succeeded
    next =>
      obtain ⟨rfl, rfl⟩ := Prod.mk.inj (Except.ok.inj succeeded)
      simp
    next content _ =>
      obtain ⟨raw, -, succeeded⟩ := bind_eq_ok.mp succeeded
      split at succeeded
      next =>
        obtain ⟨rfl, rfl⟩ := Prod.mk.inj (Except.ok.inj succeeded)
        simp
      next => simp at succeeded
      next data _ =>
        obtain ⟨vaults, -, succeeded⟩ := bind_eq_ok.mp succeeded
        obtain ⟨rfl, rfl⟩ := Prod.mk.inj (Except.ok.inj succeeded)
        exact ⟨(nodup_firstWins_id _).filter _, List.length_filter_le _ _⟩
      next =>
        obtain ⟨rfl, rfl⟩ := Prod.mk.inj (Except.ok.inj succeeded)
        simp

omit [Interpreter] [Documents] in
/-- The scans of different directories share no path exactly when none of them holds a page and
lies in another one. -/
theorem pairwise_disjoint_iff (linkless : tree.Linkless) {roots : List RelPath}
    (distinct : roots.Nodup) :
    roots.Pairwise (fun first second => (scanPaths tree isMarkdownName first []).Disjoint
      (scanPaths tree isMarkdownName second [])) ↔
      ∀ outer ∈ roots, ∀ inner ∈ roots, outer ≠ inner → outer <+: inner →
        ¬ HoldsPage tree inner := by
  have apart : roots.Pairwise (fun first second => (scanPaths tree isMarkdownName first []).Disjoint
      (scanPaths tree isMarkdownName second [])) ↔
      ∀ outer ∈ roots, ∀ inner ∈ roots, outer ≠ inner →
        (scanPaths tree isMarkdownName outer []).Disjoint
          (scanPaths tree isMarkdownName inner []) := by
    constructor
    · intro pairwise outer outerIn inner innerIn differ
      have : Std.Symm fun first second => (scanPaths tree isMarkdownName first []).Disjoint
          (scanPaths tree isMarkdownName second []) := ⟨fun _ _ => List.Disjoint.symm⟩
      exact pairwise.forall outerIn innerIn differ
    · intro all
      exact distinct.imp_of_mem fun outerIn innerIn differ => all _ outerIn _ innerIn differ
  rw [apart]
  constructor
  · rintro disjoint outer outerIn inner innerIn differ nested
      ⟨path, below, proper, markdown, included⟩
    have excluded := (disjoint_scanPaths_iff linkless).mp
      (disjoint outer outerIn inner innerIn differ) path (nested.trans below)
    have outerProper : path ≠ outer := by
      rintro rfl
      exact proper (nested.eq_of_length (le_antisymm nested.length_le below.length_le))
    simp [excluded outerProper below proper markdown] at included
  · intro alone outer outerIn inner innerIn differ
    apply (disjoint_scanPaths_iff linkless).mpr
    intro path outerStart outerProper innerStart innerProper markdown
    by_contra included
    rw [Bool.not_eq_false] at included
    rcases List.prefix_or_prefix_of_prefix outerStart innerStart with nested | nested
    · exact alone outer outerIn inner innerIn differ nested
        ⟨path, innerStart, innerProper, markdown, included⟩
    · exact alone inner innerIn outer outerIn (Ne.symm differ) nested
        ⟨path, outerStart, outerProper, markdown, included⟩

theorem oneScan_distinct (linkless : tree.Linkless) {options : PageOptions}
    {scanRoot pageRoot : RelPath} (within : pageRoot <+: scanRoot) {pages : List (List WikiPage)}
    (parsed : [scanRoot].mapM (fun root => parseMarkdownPages tree options root pageRoot) =
      .ok pages) : DistinctPaths pages.flatten := by
  rw [List.mapM_cons, List.mapM_nil, bind_eq_ok] at parsed
  obtain ⟨scanned, parsed, made⟩ := parsed
  obtain rfl : [scanned] = pages := Except.ok.inj made
  rw [List.flatten_singleton]
  exact parseMarkdownPages_distinct linkless within parsed

theorem dendron_distinct_iff (linkless : tree.Linkless)
    (succeeded : dendronAdapter.load tree = .ok loaded) :
    DistinctPaths loaded.pages ↔ VaultsApart tree := by
  simp only [dendronAdapter, bind_eq_ok] at succeeded
  obtain ⟨⟨roots, count⟩, vaults, pages, parsed, edges, -, made⟩ := succeeded
  obtain ⟨distinct, few⟩ := dendronSourceRoots_facts vaults
  rw [← Except.ok.inj made, loadedFrom_pages]
  have apart : VaultsApart tree ↔
      ∀ outer ∈ roots, ∀ inner ∈ roots, outer ≠ inner → outer <+: inner →
        ¬ HoldsPage tree inner := by
    constructor
    · exact fun apart => apart roots count vaults
    · intro apart others otherCount same
      obtain ⟨rfl, rfl⟩ := Prod.mk.inj (Except.ok.inj (vaults.symm.trans same))
      exact apart
  rw [apart]
  rcases Nat.lt_or_ge 1 count with several | single
  · have scanned : pages.flatten.map WikiPage.path =
        (if roots = [] then [] else roots).flatMap fun root =>
          scanPaths tree isMarkdownName root [] := by
      rw [List.map_flatten, @map_of_mapM_ok _ _ _ _ _ _ (List.map WikiPage.path)
        (fun root => scanPaths tree isMarkdownName root []) ?_ parsed]
      · simp [Nat.ne_of_gt (Nat.lt_of_succ_lt several), List.flatMap_def]
      · intro root pagesOf parsedRoot
        simpa [several] using parseMarkdownPages_paths parsedRoot
    rw [DistinctPaths, scanned]
    have same : (if roots = [] then [] else roots) = roots := by
      split <;> simp_all
    rw [same, List.nodup_flatMap, ← pairwise_disjoint_iff linkless distinct]
    exact and_iff_right fun root _ => nodup_scanPaths linkless List.nil_prefix
  · have lone : ∀ outer ∈ roots, ∀ inner ∈ roots, outer = inner := by
      rcases roots with _ | ⟨only, _ | ⟨second, rest⟩⟩
      · simp
      · simp
      · exact absurd few (by simp; omega)
    refine iff_of_true ?_ fun outer outerIn inner innerIn differ =>
      absurd (lone outer outerIn inner innerIn) differ
    simp only [Nat.not_lt.mpr single, if_false] at parsed
    rcases roots with _ | ⟨only, _ | ⟨second, rest⟩⟩
    · simp only [if_true] at parsed
      split at parsed
      next => exact oneScan_distinct linkless List.prefix_rfl parsed
      next =>
        obtain rfl : [] = pages := Except.ok.inj parsed
        exact List.nodup_nil
    · exact oneScan_distinct linkless List.prefix_rfl parsed
    · exact absurd few (by simp; omega)

/-! ## Loading -/

/-- The Dendron adapter is the first that recognizes the root. -/
def DendronSelected (profile : SourceProfile) (tree : FileTree) : Prop :=
  profile = .auto ∧ (∀ adapter ∈ [okfV02Adapter, obsidianAdapter, logseqAdapter],
    adapter.detect tree = .ok false) ∧ dendronAdapter.detect tree = .ok true

omit [Unicode] [Interpreter] [Documents] in
theorem loadWith_cons_eq_ok {adapter : WikiAdapter} {rest : List WikiAdapter}
    (succeeded : loadWith tree (adapter :: rest) = .ok loaded) :
    adapter.detect tree = .ok true ∧ adapter.load tree = .ok loaded ∨
      adapter.detect tree = .ok false ∧ loadWith tree rest = .ok loaded := by
  rw [loadWith, bind_eq_ok] at succeeded
  obtain ⟨detected, found, succeeded⟩ := succeeded
  cases detected with
  | false => exact Or.inr ⟨found, succeeded⟩
  | true =>
      obtain ⟨required, load, succeeded⟩ := bind_eq_ok.mp succeeded
      obtain rfl := requirePages_eq_ok succeeded
      exact Or.inl ⟨found, load⟩

/-- The adapters other than Dendron's scan no file twice. -/
theorem single_distinct (linkless : tree.Linkless) : ∀ adapter ∈
    [okfV02Adapter, obsidianAdapter, logseqAdapter, foamAdapter, quartzAdapter,
      llmWikiMarkdownAdapter, markdownWikiAdapter],
    adapter.load tree = .ok loaded → DistinctPaths loaded.pages := by
  intro adapter listed succeeded
  simp only [List.mem_cons, List.not_mem_nil, or_false] at listed
  obtain rfl | rfl | rfl | rfl | rfl | rfl | rfl := listed
  · exact okfV02_distinct linkless succeeded
  · exact loadMarkdown_distinct linkless succeeded
  · exact logseq_distinct linkless succeeded
  · exact loadMarkdown_distinct linkless succeeded
  · exact quartz_distinct linkless succeeded
  · exact llmWikiMarkdown_distinct linkless succeeded
  · exact loadMarkdown_distinct linkless succeeded

/-- Loaded pages have different paths unless a Dendron workspace has a vault with pages inside of
another vault. -/
theorem loadWiki_distinct_iff {profile : SourceProfile} (linkless : tree.Linkless)
    (succeeded : loadWiki profile tree = .ok loaded) :
    DistinctPaths loaded.pages ↔ (DendronSelected profile tree → VaultsApart tree) := by
  unfold loadWiki at succeeded
  split at succeeded
  next => simp at succeeded
  next =>
    have other : ∀ adapter ∈ [okfV02Adapter, obsidianAdapter, logseqAdapter, foamAdapter,
        quartzAdapter, llmWikiMarkdownAdapter, markdownWikiAdapter],
        adapter.load tree = .ok loaded → ¬ DendronSelected profile tree →
        (DistinctPaths loaded.pages ↔ (DendronSelected profile tree → VaultsApart tree)) := by
      intro adapter listed load unselected
      exact iff_of_true (single_distinct linkless adapter listed load)
        fun selected => absurd selected unselected
    cases profile with
    | okfV02 =>
        obtain ⟨required, load, succeeded⟩ := bind_eq_ok.mp succeeded
        obtain rfl := requirePages_eq_ok succeeded
        exact other okfV02Adapter (by simp) load fun selected => nomatch selected.1
    | auto =>
        rcases loadWith_cons_eq_ok succeeded with ⟨okf, load⟩ | ⟨noOkf, succeeded⟩
        · refine other okfV02Adapter (by simp) load fun selected => ?_
          simp [selected.2.1 okfV02Adapter (by simp)] at okf
        rcases loadWith_cons_eq_ok succeeded with ⟨obsidian, load⟩ | ⟨noObsidian, succeeded⟩
        · refine other obsidianAdapter (by simp) load fun selected => ?_
          simp [selected.2.1 obsidianAdapter (by simp)] at obsidian
        rcases loadWith_cons_eq_ok succeeded with ⟨logseq, load⟩ | ⟨noLogseq, succeeded⟩
        · refine other logseqAdapter (by simp) load fun selected => ?_
          simp [selected.2.1 logseqAdapter (by simp)] at logseq
        rcases loadWith_cons_eq_ok succeeded with ⟨dendron, load⟩ | ⟨noDendron, succeeded⟩
        · have selected : DendronSelected .auto tree := by
            refine ⟨rfl, ?_, dendron⟩
            simp [noOkf, noObsidian, noLogseq]
          rw [dendron_distinct_iff linkless load]
          exact ⟨fun apart _ => apart, fun apart => apart selected⟩
        · have unselected : ¬ DendronSelected .auto tree := by
            intro selected
            simp [selected.2.2] at noDendron
          obtain ⟨adapter, listed, load⟩ := loadWith_eq_ok succeeded
          exact other adapter
            (List.mem_append_right [okfV02Adapter, obsidianAdapter, logseqAdapter] listed)
            load unselected

end Pages

section Sample

/-- A reader of a list of vaults with one line `- fsPath: path` for each, a fragment of YAML. -/
@[reducible]
def Documents.vaultLines : Documents where
  safeLoad block :=
    let vaults := (Text.splitOn '\n' block).filterMap fun line =>
      if Text.startsWith line "- fsPath: " then
        some (.dict [(.str "fsPath", .str (Text.removePrefix line "- fsPath: "))])
      else none
    .ok (.dict [(.str "vaults", .sequence .list vaults)])
  jsonLoads _ := .error .syntax_

attribute [local instance] Unicode.ascii Value.plainInterpreter Documents.vaultLines Host.plain

/-- A workspace with a page in the directory `a/b` and these vaults. -/
def vaultTree (config : Text) : FileTree :=
  .ofChildren ⟨1, 1, 0, 0⟩
    [("a", .dir ⟨1, 2, 0, 0⟩ [("b", .dir ⟨1, 3, 0, 0⟩ [("page.md", FileTree.textFile 4 "text")])]),
      ("dendron.yml", FileTree.textFile 5 config)] rfl

theorem linkless_vaultTree (config : Text) : (vaultTree config).Linkless := by
  intro root rooted
  obtain rfl := Option.some.inj rooted
  have page : ∀ inode text, (FileTree.textFile inode text).Linkless :=
    fun _ _ => Node.linkless_file _ _
  have only : ∀ (name : Text) (node : Node), node.Linkless → ∀ entry ∈ [(name, node)], entry.2.Linkless := by
    rintro name node linkless entry entryIn
    obtain rfl := List.mem_singleton.mp entryIn
    exact linkless
  apply Node.linkless_dir
  rw [List.forall_mem_cons]
  exact ⟨Node.linkless_dir (only "b" _ (Node.linkless_dir (only "page.md" _ (page 4 "text")))),
    only "dendron.yml" _ (page 5 config)⟩

def vaultPaths (config : Text) : Option (List Text) :=
  (loadWiki .auto (vaultTree config)).toOption.map fun loaded => loaded.pages.map WikiPage.path

theorem loads_of_vaultPaths {config : Text} {paths : List Text}
    (found : vaultPaths config = some paths) :
    ∃ loaded, loadWiki .auto (vaultTree config) = .ok loaded ∧
      loaded.pages.map WikiPage.path = paths := by
  obtain ⟨loaded, succeeded, same⟩ := Option.map_eq_some_iff.mp found
  cases loads : loadWiki .auto (vaultTree config) with
  | error error => simp [loads, Except.toOption] at succeeded
  | ok other =>
      rw [loads] at succeeded
      obtain rfl : other = loaded := Option.some.inj succeeded
      exact ⟨other, rfl, same⟩

theorem loadWiki_distinct_iff_singleVault :
    ∃ loaded, loadWiki .auto (vaultTree "vaults:\n- fsPath: a/b\n") = .ok loaded ∧
      DistinctPaths loaded.pages := by
  have found : vaultPaths "vaults:\n- fsPath: a/b\n" = some [("page.md" : Text)] := by
    decide +kernel
  have single : (dendronSourceRoots (vaultTree "vaults:\n- fsPath: a/b\n")).toOption.map Prod.fst =
      some [[("a" : Text), "b"]] := by
    decide +kernel
  obtain ⟨loaded, loads, -⟩ := loads_of_vaultPaths found
  refine ⟨loaded, loads, (loadWiki_distinct_iff (linkless_vaultTree _) loads).mpr fun _ => ?_⟩
  intro roots count listed outer outerIn inner innerIn different
  rw [listed] at single
  obtain rfl : roots = [[("a" : Text), "b"]] := Option.some.inj single
  rw [List.mem_singleton.mp outerIn, List.mem_singleton.mp innerIn] at different
  exact absurd rfl different

/-- The vaults `a` and `a/b` serve the page in the latter twice. -/
theorem nestedVaults_repeat :
    ∃ loaded, (vaultTree "vaults:\n- fsPath: a\n- fsPath: a/b\n").Linkless ∧
      loadWiki .auto (vaultTree "vaults:\n- fsPath: a\n- fsPath: a/b\n") = .ok loaded ∧
      ¬ DistinctPaths loaded.pages := by
  have found : vaultPaths "vaults:\n- fsPath: a\n- fsPath: a/b\n" =
      some [("a/b/page.md" : Text), ("a/b/page.md" : Text)] := by
    decide +kernel
  obtain ⟨loaded, loads, paths⟩ := loads_of_vaultPaths found
  refine ⟨loaded, linkless_vaultTree _, loads, ?_⟩
  rw [DistinctPaths, paths]
  decide

end Sample

end LlmWikiServe
