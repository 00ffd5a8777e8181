import LlmWikiServe.Signature

/-!
# The incremental check equals a full walk

A directory digest lists exactly the children a walk visits or signs.  When every
recorded state is current, the walk over the later tree therefore meets the same
children in the same states, directory by directory.
-/

namespace LlmWikiServe

namespace Scan

@[simp]
theorem append_entries (first second : Scan) :
    (first.append second).entries = first.entries ++ second.entries := rfl

@[simp]
theorem append_pathStates (first second : Scan) :
    (first.append second).pathStates = first.pathStates ++ second.pathStates := rfl

@[simp]
theorem empty_append (scan : Scan) : Scan.empty.append scan = scan := rfl

theorem mem_concat_pathStates {scans : List Scan} {state : PathState} :
    state ∈ (Scan.concat scans).pathStates ↔ ∃ scan ∈ scans, state ∈ scan.pathStates := by
  induction scans with
  | nil => simp [Scan.concat, Scan.empty]
  | cons head tail inductionHypothesis =>
      have unfolded : Scan.concat (head :: tail) = head.append (Scan.concat tail) := rfl
      rw [unfolded, append_pathStates, List.mem_append, inductionHypothesis]
      simp

end Scan

section Freshness

variable [Unicode]

/-! ## Children a directory digest lists -/

/-- The entry a directory digest lists for a child: whether it is a directory, and its name. -/
def listedAs (rootName : Text) (path : RelPath) (entry : Text × Node) : Option (Bool × Text) :=
  if entry.1 ∈ ignoredSignatureParts || entry.2.isSymlink then none
  else if entry.2.isDir then some (true, entry.1)
  else if isSignatureFile rootName (path ++ [entry.1]) entry.2 then some (false, entry.1)
  else none

/-- The text of a listed child without its terminator. -/
def listingWord (listed : Bool × Text) : Text :=
  (if listed.1 then ("dir:" : Text) else "file:") ++ listed.2

omit [Unicode] in
theorem listingWord_injective {listed other : Bool × Text}
    (same : listingWord listed = listingWord other) : listed = other := by
  rcases listed with ⟨_ | _, name⟩ <;> rcases other with ⟨_ | _, otherName⟩ <;>
    simp_all [listingWord]

theorem digestEntry_eq (rootName : Text) (path : RelPath) (entry : Text × Node) :
    digestEntry rootName path entry =
      (listedAs rootName path entry).elim [] fun listed => listingWord listed ++ ['\x00'] := by
  unfold digestEntry listedAs
  split
  · rfl
  · split
    · rfl
    · split <;> rfl

theorem listedAs_name {rootName : Text} {path : RelPath} {entry : Text × Node}
    {listed : Bool × Text} (found : listedAs rootName path entry = some listed) :
    listed.2 = entry.1 := by
  unfold listedAs at found
  split at found
  · simp at found
  · split at found
    · cases found
      rfl
    · split at found
      · cases found
        rfl
      · simp at found

theorem flatMap_digestEntry (rootName : Text) (path : RelPath) (children : Children) :
    children.flatMap (digestEntry rootName path) =
      ((children.filterMap (listedAs rootName path)).map listingWord).flatMap (· ++ ['\x00']) := by
  induction children with
  | nil => rfl
  | cons entry rest inductionHypothesis =>
      rw [List.flatMap_cons, inductionHypothesis, digestEntry_eq, List.filterMap_cons]
      cases listedAs rootName path entry <;> simp

theorem listed_eq_of_digest [Hashing] (injective : Function.Injective Hashing.blake2b)
    {rootName : Text} {path : RelPath} {children others : Children}
    (plain : isMarkerPath path = false)
    (names : ∀ name ∈ children.map Prod.fst, validName name)
    (otherNames : ∀ name ∈ others.map Prod.fst, validName name)
    (same : directoryDigest rootName path children = directoryDigest rootName path others) :
    children.filterMap (listedAs rootName path) = others.filterMap (listedAs rootName path) := by
  have free : ∀ entries : Children, (∀ name ∈ entries.map Prod.fst, validName name) →
      ∀ word ∈ (entries.filterMap (listedAs rootName path)).map listingWord, '\x00' ∉ word := by
    intro entries valid word wordIn
    rcases List.mem_map.mp wordIn with ⟨listed, listedIn, rfl⟩
    rcases List.mem_filterMap.mp listedIn with ⟨entry, entryIn, found⟩
    have name := (valid entry.1 (List.mem_map_of_mem entryIn)).2.2.1
    rw [← listedAs_name found] at name
    unfold listingWord
    rw [List.mem_append]
    rintro (inKind | inName)
    · revert inKind
      cases listed.1 <;> decide
    · exact name inName
  simp only [directoryDigest, plain, Bool.false_eq_true, if_false] at same
  have texts := injective same
  rw [Content.text.injEq, flatMap_digestEntry, flatMap_digestEntry] at texts
  have words := Text.terminated_injective (free children names) (free others otherNames) texts
  exact List.map_injective_iff.mpr (fun _ _ => listingWord_injective) words

theorem not_listed_cases {rootName : Text} {path : RelPath} {entry : Text × Node}
    (unlisted : listedAs rootName path entry = none) :
    entry.1 ∈ ignoredSignatureParts ∨ entry.2.isSymlink = true ∨
      (entry.2.isDir = false ∧ isSignatureFile rootName (path ++ [entry.1]) entry.2 = false) := by
  unfold listedAs at unlisted
  split at unlisted
  next skipped =>
    rcases (Bool.or_eq_true _ _).mp skipped with ignored | linked
    · exact Or.inl (by simpa using ignored)
    · exact Or.inr (Or.inl linked)
  next =>
    split at unlisted
    · simp at unlisted
    next notDir =>
      split at unlisted
      · simp at unlisted
      next unsigned => exact Or.inr (Or.inr ⟨by simpa using notDir, by simpa using unsigned⟩)

theorem isSignatureFile_ignored {rootName name : Text} {path : RelPath} {node : Node}
    (ignored : name ∈ ignoredSignatureParts) :
    isSignatureFile rootName (path ++ [name]) node = false := by
  have inPath : (path ++ [name]).any (· ∈ ignoredSignatureParts) = true := by
    simp [ignored]
  simp [isSignatureFile, inPath]

theorem isSignatureFile_isFile {rootName : Text} {path : RelPath} {node : Node}
    (signed : isSignatureFile rootName path node = true) :
    node.isSymlink = false ∧ node.isFile = true := by
  unfold isSignatureFile at signed
  split at signed
  · simp at signed
  next plain =>
    simp only [Bool.or_eq_true, Bool.not_eq_true', not_or, Bool.not_eq_true,
      Bool.not_eq_false] at plain
    exact ⟨plain.1.1, plain.1.2⟩

omit [Unicode] in
theorem marker_not_ignored {name : Text} (marker : name ∈ signatureMarkerNames) :
    name ∉ ignoredSignatureParts := by
  simp only [signatureMarkerNames, List.mem_cons, List.not_mem_nil, or_false] at marker
  rcases marker with rfl | rfl <;> decide

variable [Hashing]

theorem scanMarker_unlisted {rootName : Text} {path : RelPath} {entry : Text × Node}
    (unlisted : listedAs rootName path entry = none) :
    scanMarker rootName path entry = Scan.empty := by
  rcases entry with ⟨name, node⟩
  cases node with
  | dir stat children =>
      rcases not_listed_cases unlisted with ignored | linked | ⟨notDir, _⟩
      · have unmarked : name ∉ signatureMarkerNames := fun marker =>
          marker_not_ignored marker ignored
        simp [scanMarker, unmarked]
      · simp [Node.isSymlink] at linked
      · simp at notDir
  | _ => rfl

theorem scanFile_unlisted {rootName : Text} {path : RelPath} {entry : Text × Node}
    (unlisted : listedAs rootName path entry = none) :
    scanFile rootName path entry = Scan.empty := by
  rcases entry with ⟨name, node⟩
  cases node with
  | file stat content =>
      have unsigned : isSignatureFile rootName (path ++ [name]) (.file stat content) = false := by
        rcases not_listed_cases unlisted with ignored | linked | ⟨_, unsigned⟩
        · exact isSignatureFile_ignored ignored
        · simp [Node.isSymlink] at linked
        · exact unsigned
      simp [scanFile, unsigned]
  | _ => rfl

def walkEntry (rootName : Text) (path : RelPath) (entry : Text × Node) : Scan :=
  if walkEnters entry.1 then walkNode rootName (path ++ [entry.1]) entry.2 else .empty

theorem walkChildren_eq_concat (rootName : Text) (path : RelPath) (children : Children) :
    walkChildren rootName path children =
      Scan.concat (children.map (walkEntry rootName path)) := by
  induction children with
  | nil => rfl
  | cons entry rest inductionHypothesis =>
      rcases entry with ⟨name, node⟩
      rw [walkChildren, inductionHypothesis]
      rfl

theorem walkEntry_unlisted {rootName : Text} {path : RelPath} {entry : Text × Node}
    (unlisted : listedAs rootName path entry = none) :
    walkEntry rootName path entry = Scan.empty := by
  rcases entry with ⟨name, node⟩
  cases node with
  | dir stat children =>
      rcases not_listed_cases unlisted with ignored | linked | ⟨notDir, _⟩
      · simp [walkEntry, walkEnters, ignored]
      · simp [Node.isSymlink] at linked
      · simp at notDir
  | _ =>
      unfold walkEntry
      split <;> rfl

omit [Unicode] [Hashing] in
/-- Scans of listed children agree when the lists agree and equally listed children do. -/
theorem concat_congr_of_listed {listed : Text × Node → Option (Bool × Text)}
    {scan : Text × Node → Scan} {children others : Children}
    (same : children.filterMap listed = others.filterMap listed)
    (unlisted : ∀ entry, listed entry = none → scan entry = Scan.empty)
    (agree : ∀ entry ∈ children, ∀ other ∈ others, ∀ word, listed entry = some word →
      listed other = some word → scan entry = scan other) :
    Scan.concat (children.map scan) = Scan.concat (others.map scan) := by
  have skip : ∀ front rest : Children, (∀ entry ∈ front, listed entry = none) →
      Scan.concat ((front ++ rest).map scan) = Scan.concat (rest.map scan) := by
    intro front rest allUnlisted
    induction front with
    | nil => rfl
    | cons entry front inductionHypothesis =>
        have head := unlisted entry (allUnlisted entry List.mem_cons_self)
        have tail := inductionHypothesis fun other otherIn =>
          allUnlisted other (List.mem_cons_of_mem _ otherIn)
        simp only [List.cons_append, List.map_cons, Scan.concat, List.foldr_cons, head,
          Scan.empty_append]
        exact tail
  induction children generalizing others with
  | nil =>
      have none : ∀ entry ∈ others, listed entry = Option.none :=
        List.filterMap_eq_nil_iff.mp same.symm
      simpa using (skip others [] none).symm
  | cons entry rest inductionHypothesis =>
      cases found : listed entry with
      | none =>
          rw [List.filterMap_cons_none found] at same
          have tail := inductionHypothesis same fun other otherIn =>
            agree other (List.mem_cons_of_mem _ otherIn)
          rw [← tail]
          exact skip [entry] rest (by simpa using found)
      | some word =>
          rw [List.filterMap_cons_some found] at same
          rcases List.filterMap_eq_cons_iff.mp same.symm with
            ⟨front, other, back, rfl, frontUnlisted, otherFound, backSame⟩
          have tail := inductionHypothesis backSame.symm fun child childIn partner partnerIn =>
            agree child (List.mem_cons_of_mem _ childIn) partner
              (List.mem_append_right _ (List.mem_cons_of_mem _ partnerIn))
          have head := agree entry List.mem_cons_self other
            (List.mem_append_right _ List.mem_cons_self) word found otherFound
          rw [skip front (other :: back) frontUnlisted]
          simp only [List.map_cons, Scan.concat, List.foldr_cons, head]
          exact congrArg _ tail

/-! ## States found at recorded paths -/

omit [Hashing] in
theorem listedAs_dir {rootName : Text} {path : RelPath} {entry : Text × Node} {name : Text}
    (found : listedAs rootName path entry = some (true, name)) :
    ∃ stat children, entry.2 = .dir stat children := by
  unfold listedAs at found
  split at found
  · simp at found
  next kept =>
    split at found
    next directory =>
      apply Node.eq_dir_of_not_symlink directory
      simp only [Bool.or_eq_true, not_or, Bool.not_eq_true] at kept
      exact kept.2
    next =>
      split at found
      · simp at found
      · simp at found

omit [Hashing] in
theorem listedAs_file {rootName : Text} {path : RelPath} {entry : Text × Node} {name : Text}
    (found : listedAs rootName path entry = some (false, name)) :
    isSignatureFile rootName (path ++ [entry.1]) entry.2 = true ∧
      ∃ stat content, entry.2 = .file stat content := by
  unfold listedAs at found
  split at found
  · simp at found
  next kept =>
    split at found
    · simp at found
    next =>
      split at found
      next signed =>
        rcases isSignatureFile_isFile signed with ⟨plain, regular⟩
        exact ⟨signed, Node.eq_file_of_not_symlink regular plain⟩
      · simp at found

theorem pathState_plain {rootName : Text} {path : RelPath} {kind : PathKind} {allowSymlink : Bool}
    {node : Option Node} {state : PathState}
    (found : pathState rootName path kind allowSymlink node = some state) :
    ∃ target resolved, node = some target ∧ (allowSymlink = true ∨ target.isSymlink = false) ∧
      target.resolve = some resolved ∧ nodeState rootName path resolved = some state := by
  unfold pathState at found
  split at found
  · simp at found
  next target =>
    split at found
    · simp at found
    next allowed =>
      have plain : allowSymlink = true ∨ target.isSymlink = false := by
        cases allowSymlink <;> simp_all
      cases kind with
      | missing => simp at found
      | dir =>
          simp only [Option.ite_none_right_eq_some, Option.bind_eq_some_iff] at found
          rcases found.2 with ⟨resolved, resolves, stated⟩
          exact ⟨target, resolved, rfl, plain, resolves, stated⟩
      | file =>
          simp only [Option.ite_none_right_eq_some, Option.bind_eq_some_iff] at found
          rcases found.2 with ⟨resolved, resolves, stated⟩
          exact ⟨target, resolved, rfl, plain, resolves, stated⟩

omit [Unicode] [Hashing] in
theorem eq_of_resolve {node resolved : Node} (plain : node.isSymlink = false)
    (resolves : node.resolve = some resolved) : node = resolved := by
  cases node <;> simp_all [Node.isSymlink]

/-- A recorded directory that is current is a directory of the tree in the recorded state. -/
theorem current_dir {rootName : Text} {tree : FileTree} {state : PathState}
    (kind : state.kind = .dir) (current : currentPathState rootName tree state = some state) :
    ∃ stat children, tree.at? state.relativePath = some (.dir stat children) ∧
      nodeState rootName state.relativePath (.dir stat children) = some state := by
  simp only [currentPathState, kind, reduceCtorEq, if_false] at current
  rcases pathState_plain current with ⟨target, resolved, found, plain, resolves, stated⟩
  have same : target = resolved := by
    rcases plain with atRoot | plain
    · have atRoot : state.relativePath = [] := by simpa using atRoot
      rw [atRoot, FileTree.at?] at found
      rcases Option.bind_eq_some_iff.mp found with ⟨root, rooted, located⟩
      have equality : root = target := Option.some.inj located
      rw [← equality] at resolves ⊢
      exact Option.some.inj ((tree.followed root rooted).symm.trans resolves)
    · exact eq_of_resolve plain resolves
  subst same
  cases target with
  | dir stat children => exact ⟨stat, children, found, stated⟩
  | file stat content =>
      simp only [nodeState, Option.some.injEq] at stated
      rw [← stated] at kind
      simp at kind
  | _ => simp [nodeState] at stated

theorem current_file {rootName : Text} {tree : FileTree} {state : PathState} {node : Node}
    (kind : state.kind = .file) (below : state.relativePath ≠ [])
    (found : tree.at? state.relativePath = some node)
    (current : currentPathState rootName tree state = some state) :
    nodeState rootName state.relativePath node = some state := by
  simp only [currentPathState, kind, reduceCtorEq, if_false, below, decide_false] at current
  rcases pathState_plain current with ⟨target, resolved, located, plain, resolves, stated⟩
  have same : node = target := Option.some.inj (found.symm.trans located)
  have solid : target.isSymlink = false := plain.resolve_left (by simp)
  rw [same, eq_of_resolve solid resolves]
  exact stated

/-! ## Equally listed children in recorded states -/

variable {rootName : Text} {tree : FileTree} {path : RelPath} {stat : Stat}
  {children : Children} {entry other : Text × Node}

theorem scanMarker_agree (found : tree.at? path = some (.dir stat children))
    (otherIn : other ∈ children) {word : Bool × Text}
    (listed : listedAs rootName path entry = some word)
    (otherListed : listedAs rootName path other = some word)
    (current : ∀ state ∈ (scanMarker rootName path entry).pathStates,
      currentPathState rootName tree state = some state) :
    scanMarker rootName path entry = scanMarker rootName path other := by
  have names : entry.1 = other.1 := (listedAs_name listed).symm.trans (listedAs_name otherListed)
  rcases word with ⟨_ | _, name⟩
  · rcases (listedAs_file listed).2 with ⟨_, _, shape⟩
    rcases (listedAs_file otherListed).2 with ⟨_, _, otherShape⟩
    simp [scanMarker, shape, otherShape]
  · rcases listedAs_dir listed with ⟨entryStat, entryChildren, shape⟩
    rcases listedAs_dir otherListed with ⟨otherStat, otherChildren, otherShape⟩
    unfold scanMarker
    rw [shape, otherShape, ← names]
    dsimp only
    split
    next marked =>
      have recorded := current ⟨path ++ [entry.1], .dir, entryStat.device, entryStat.inode,
        entryStat.mtimeNs, entryStat.size, []⟩ (by
          simp [scanMarker, shape, marked, pathState, Node.isSymlink, nodeState, directoryDigest,
            Scan.signed])
      rcases current_dir rfl recorded with ⟨foundStat, foundChildren, located, stated⟩
      have stored := FileTree.at?_child found otherIn
      rw [← names, located, otherShape] at stored
      simp only [Option.some.injEq, Node.dir.injEq] at stored
      simp only [nodeState, Option.some.injEq, PathState.mk.injEq, true_and] at stated
      have stats : otherStat = entryStat := by
        rw [← stored.1]
        cases foundStat
        cases entryStat
        simp_all
      simp [pathState, Node.isSymlink, nodeState, directoryDigest, marked.2, stats]
    · rfl

theorem scanFile_agree (found : tree.at? path = some (.dir stat children))
    (otherIn : other ∈ children) {word : Bool × Text}
    (listed : listedAs rootName path entry = some word)
    (otherListed : listedAs rootName path other = some word)
    (current : ∀ state ∈ (scanFile rootName path entry).pathStates,
      currentPathState rootName tree state = some state) :
    scanFile rootName path entry = scanFile rootName path other := by
  have names : entry.1 = other.1 := (listedAs_name listed).symm.trans (listedAs_name otherListed)
  rcases word with ⟨_ | _, name⟩
  · rcases listedAs_file listed with ⟨signed, entryStat, entryContent, shape⟩
    rcases listedAs_file otherListed with ⟨otherSigned, otherStat, otherContent, otherShape⟩
    have recorded := current ⟨path ++ [entry.1], .file, entryStat.device, entryStat.inode,
      entryStat.mtimeNs, entryStat.size, Hashing.blake2b entryContent⟩ (by
        rw [shape] at signed
        simp [scanFile, shape, signed, pathState, Node.isSymlink, nodeState, Scan.signed])
    have stored := FileTree.at?_child found otherIn
    rw [← names] at stored
    have stated := current_file rfl (by simp) stored recorded
    rw [otherShape] at stated
    simp only [nodeState, Option.some.injEq, PathState.mk.injEq, true_and] at stated
    rw [shape] at signed
    rw [otherShape, ← names] at otherSigned
    unfold scanFile
    rw [shape, otherShape, ← names]
    simp [signed, otherSigned, pathState, Node.isSymlink, nodeState, stated]
  · rcases listedAs_dir listed with ⟨_, _, shape⟩
    rcases listedAs_dir otherListed with ⟨_, _, otherShape⟩
    simp [scanFile, shape, otherShape]

/-! ## The walk -/

/-- Every recorded state of the scan is found again in the tree. -/
def AllCurrent (rootName : Text) (tree : FileTree) (scan : Scan) : Prop :=
  ∀ state ∈ scan.pathStates, currentPathState rootName tree state = some state

theorem AllCurrent.left {first second : Scan}
    (current : AllCurrent rootName tree (first.append second)) :
    AllCurrent rootName tree first :=
  fun state stateIn => current state (List.mem_append_left _ stateIn)

theorem AllCurrent.right {first second : Scan}
    (current : AllCurrent rootName tree (first.append second)) :
    AllCurrent rootName tree second :=
  fun state stateIn => current state (List.mem_append_right _ stateIn)

theorem AllCurrent.of_concat {scan : Text × Node → Scan} {entries : Children}
    (current : AllCurrent rootName tree (Scan.concat (entries.map scan))) {entry : Text × Node}
    (entryIn : entry ∈ entries) : AllCurrent rootName tree (scan entry) :=
  fun state stateIn => current state
    (Scan.mem_concat_pathStates.mpr ⟨scan entry, List.mem_map_of_mem entryIn, stateIn⟩)

omit [Unicode] [Hashing] in
theorem isMarkerPath_append {name : Text} (enters : walkEnters name = true) (path : RelPath) :
    isMarkerPath (path ++ [name]) = false := by
  simp only [walkEnters, Bool.and_eq_true, decide_eq_true_eq] at enters
  rw [isMarkerPath, decide_eq_false_iff_not]
  intro marked
  rcases List.mem_map.mp marked with ⟨marker, markerIn, same⟩
  cases path with
  | nil =>
      have equality : marker = name := by simpa using same
      exact enters.2 (equality ▸ markerIn)
  | cons head tail => simp at same

theorem scanListing_own (rootName : Text) (path : RelPath) (stat : Stat) (children : Children) :
    scanListing rootName path stat children =
      Scan.append ⟨[], [], [⟨path, .dir, stat.device, stat.inode, stat.mtimeNs, stat.size,
          directoryDigest rootName path children⟩]⟩
        ((Scan.concat (children.map (scanMarker rootName path))).append
          (Scan.concat (children.map (scanFile rootName path)))) := by
  simp [scanListing, pathState, Node.isSymlink, nodeState]

/-- Where everything a walk recorded is current, the tree holds a directory that is walked with
the same result. -/
theorem walkNode_of_current (injective : Function.Injective Hashing.blake2b) {node : Node}
    (valid : node.WellFormed) (path : RelPath) (plain : isMarkerPath path = false)
    (directory : ∃ stat children, node = .dir stat children)
    (current : AllCurrent rootName tree (walkNode rootName path node)) :
    ∃ stat children, tree.at? path = some (.dir stat children) ∧
      walkNode rootName path (.dir stat children) = walkNode rootName path node := by
  induction valid generalizing path with
  | file stat content => rcases directory with ⟨_, _, shape⟩; cases shape
  | link target _ _ => rcases directory with ⟨_, _, shape⟩; cases shape
  | dangling => rcases directory with ⟨_, _, shape⟩; cases shape
  | special stat => rcases directory with ⟨_, _, shape⟩; cases shape
  | dir stat children names sorted nodes inductionHypothesis =>
      rw [walkNode, walkChildren_eq_concat] at current
      have listing := current.left
      rw [scanListing_own] at listing
      -- The directory itself is found in its recorded state, so its digest is unchanged.
      rcases current_dir rfl (listing.left _ (List.mem_singleton_self _)) with
        ⟨foundStat, foundChildren, found, stated⟩
      simp only [nodeState, Option.some.injEq, PathState.mk.injEq, true_and] at stated
      rcases stated with ⟨device, inode, mtime, size, digest⟩
      have stats : foundStat = stat := by
        cases foundStat
        cases stat
        simp_all
      have foundNames : ∀ name ∈ foundChildren.map Prod.fst, validName name := by
        cases FileTree.at?_wellFormed found with
        | dir _ _ valid _ _ => exact valid
      have listed := listed_eq_of_digest injective plain names foundNames digest.symm
      refine ⟨foundStat, foundChildren, found, ?_⟩
      have markers : Scan.concat (children.map (scanMarker rootName path)) =
          Scan.concat (foundChildren.map (scanMarker rootName path)) :=
        concat_congr_of_listed listed (fun _ => scanMarker_unlisted)
          fun entry entryIn other otherIn word entryListed otherListed =>
            scanMarker_agree found otherIn entryListed otherListed
              (listing.right.left.of_concat entryIn)
      have files : Scan.concat (children.map (scanFile rootName path)) =
          Scan.concat (foundChildren.map (scanFile rootName path)) :=
        concat_congr_of_listed listed (fun _ => scanFile_unlisted)
          fun entry entryIn other otherIn word entryListed otherListed =>
            scanFile_agree found otherIn entryListed otherListed
              (listing.right.right.of_concat entryIn)
      have subdirectories : Scan.concat (children.map (walkEntry rootName path)) =
          Scan.concat (foundChildren.map (walkEntry rootName path)) := by
        refine concat_congr_of_listed listed (fun _ => walkEntry_unlisted) ?_
        intro entry entryIn other otherIn word entryListed otherListed
        have entryNames : entry.1 = other.1 :=
          (listedAs_name entryListed).symm.trans (listedAs_name otherListed)
        have entryCurrent := current.right.of_concat entryIn
        unfold walkEntry at entryCurrent ⊢
        rw [← entryNames]
        split
        next enters =>
          rw [if_pos enters] at entryCurrent
          rcases word with ⟨_ | _, name⟩
          · rcases (listedAs_file entryListed).2 with ⟨_, _, shape⟩
            rcases (listedAs_file otherListed).2 with ⟨_, _, otherShape⟩
            rw [shape, otherShape, walkNode, walkNode]
            all_goals simp
          · rcases inductionHypothesis entry entryIn (path ++ [entry.1])
                (isMarkerPath_append enters path) (listedAs_dir entryListed) entryCurrent with
              ⟨childStat, childChildren, childFound, same⟩
            have stored := FileTree.at?_child found otherIn
            rw [← entryNames, childFound] at stored
            rw [← Option.some.inj stored, same]
        · rfl
      rw [walkNode, walkNode, walkChildren_eq_concat, walkChildren_eq_concat, scanListing_own,
        scanListing_own, markers, files, subdirectories, stats, digest]

/-! ## Snapshots -/

omit [Unicode] [Hashing] in
theorem at?_root {tree : FileTree} : tree.at? [] = tree.root := by
  cases root : tree.root <;> simp [FileTree.at?, root, Node.at?]

/-- A walk over a node that is no directory records nothing. -/
theorem walkNode_of_not_dir {node : Node} (resolved : node.resolve = some node)
    (notDir : node.isDir = false) : walkNode rootName path node = Scan.empty := by
  cases node with
  | dir stat children => simp at notDir
  | _ => rfl

/-- Where the root is no directory, its fallback state is all there is. -/
theorem snapshot_of_not_dir (flat : ∀ node, tree.root = some node → node.isDir = false) :
    sourceSignatureSnapshot rootName tree =
      { signature := [], projectionSignature := [],
        paths := [rootFallbackState rootName tree.root] } := by
  cases rooted : tree.root with
  | none => simp [sourceSignatureSnapshot, rooted, rootFallbackState, pathState]
  | some node =>
      have empty : walkNode rootName [] node = Scan.empty :=
        walkNode_of_not_dir (tree.followed node rooted) (flat node rooted)
      simp [sourceSignatureSnapshot, rooted, empty, Scan.empty]

theorem rootFallbackState_cases (tree : FileTree) :
    ((∀ node, tree.root = some node → node.isDir = false) ∧
        ((rootFallbackState rootName tree.root = missingState) ∨
          ((rootFallbackState rootName tree.root).kind = .file ∧
            (rootFallbackState rootName tree.root).relativePath = []))) ∨
      ((∃ stat children, tree.root = some (.dir stat children)) ∧
        (rootFallbackState rootName tree.root).kind = .dir) := by
  cases rooted : tree.root with
  | none => exact Or.inl ⟨by simp, Or.inl rfl⟩
  | some node =>
      have solid := Node.isSymlink_of_resolve (tree.followed node rooted)
      cases node with
      | dir stat children => exact Or.inr ⟨⟨stat, children, rfl⟩, rfl⟩
      | file stat content =>
          refine Or.inl ⟨?_, Or.inr ⟨rfl, rfl⟩⟩
          intro other same
          exact Option.some.inj same ▸ rfl
      | special stat =>
          refine Or.inl ⟨?_, Or.inl rfl⟩
          intro other same
          exact Option.some.inj same ▸ rfl
      | dangling => simp [Node.isSymlink] at solid
      | link target => simp [Node.isSymlink] at solid

/-- A root that is no directory and whose state is current is still none, in the same state. -/
theorem flat_of_current {state : PathState}
    (recorded : state = missingState ∨ (state.kind = .file ∧ state.relativePath = []))
    (current : currentPathState rootName tree state = some state) :
    (∀ node, tree.root = some node → node.isDir = false) ∧
      rootFallbackState rootName tree.root = state := by
  rcases recorded with rfl | ⟨kind, atRoot⟩
  · have located : tree.at? missingState.relativePath = tree.root := at?_root
    cases rooted : tree.root with
    | none => exact ⟨by simp, rfl⟩
    | some node =>
        have present : (some node).any Node.exists_ = true := by
          simp [Node.exists_, tree.followed node rooted]
        have kind : missingState.kind = .missing := rfl
        simp only [currentPathState, kind, if_true, located, rooted, present,
          Option.some.injEq] at current
        have fallback := @rootFallbackState_cases _ _ rootName tree
        rw [rooted] at fallback
        rcases fallback with ⟨flat, _⟩ | directory
        · exact ⟨flat, current⟩
        · rw [current] at directory
          exact absurd directory.2 (by decide)
  · simp only [currentPathState, kind, atRoot, reduceCtorEq, if_false, decide_true,
      at?_root] at current
    rcases pathState_plain current with ⟨node, resolved, rooted, _, resolves, stated⟩
    have same : node = resolved :=
      Option.some.inj ((tree.followed node rooted).symm.trans resolves)
    subst same
    cases node with
    | file stat content =>
        rw [rooted] at current ⊢
        refine ⟨?_, ?_⟩
        · intro other equality
          exact Option.some.inj equality ▸ rfl
        · exact Option.some.inj stated
    | dir stat children =>
        simp only [nodeState, Option.some.injEq] at stated
        rw [← stated] at kind
        simp at kind
    | _ => simp [nodeState] at stated

/-- The states a snapshot records over a directory are those of the walk. -/
theorem snapshot_of_dir {stat : Stat} {children : Children}
    (rooted : tree.root = some (.dir stat children)) :
    sourceSignatureSnapshot rootName tree =
      { signature := (walkNode rootName [] (.dir stat children)).entries
        projectionSignature := (walkNode rootName [] (.dir stat children)).projectionStates
        paths := (walkNode rootName [] (.dir stat children)).pathStates } := by
  have recorded : (walkNode rootName [] (.dir stat children)).pathStates ≠ [] := by
    rw [walkNode, scanListing_own]
    simp
  simp [sourceSignatureSnapshot, rooted, recorded]

/-- With collision-free digests, a snapshot whose recorded paths are all current in a later tree
is the snapshot of that tree. -/
theorem snapshot_eq_of_isCurrent (injective : Function.Injective Hashing.blake2b)
    {earlier later : FileTree}
    (current : isCurrent rootName later (sourceSignatureSnapshot rootName earlier) = true) :
    sourceSignatureSnapshot rootName later = sourceSignatureSnapshot rootName earlier := by
  simp only [isCurrent, List.all_eq_true, decide_eq_true_eq] at current
  rcases @rootFallbackState_cases _ _ rootName earlier with
    ⟨flat, kind⟩ | ⟨⟨stat, children, rooted⟩, _⟩
  · rw [snapshot_of_not_dir flat] at current ⊢
    rcases flat_of_current kind (current _ (List.mem_singleton_self _)) with ⟨laterFlat, same⟩
    rw [snapshot_of_not_dir laterFlat, same]
  · rw [snapshot_of_dir rooted] at current ⊢
    rcases walkNode_of_current injective (earlier.wellFormed _ rooted) [] (by decide)
        ⟨stat, children, rfl⟩ current with ⟨laterStat, laterChildren, found, same⟩
    rw [at?_root] at found
    rw [snapshot_of_dir found, same]

/-! ## The cache over a run -/

def cacheAnswers (rootName : Text) :
    Option SourceSignatureSnapshot → List (Bool × FileTree) → List SourceSignatureSnapshot
  | _, [] => []
  | cached, (refresh, tree) :: calls =>
      let answer := currentSnapshot rootName refresh tree cached
      answer :: cacheAnswers rootName (some answer) calls

/-- A call on a cache that holds the snapshot of some tree answers like a fresh walk. -/
theorem currentSnapshot_eq (injective : Function.Injective Hashing.blake2b) (refresh : Bool)
    (tree : FileTree) {cached : Option SourceSignatureSnapshot}
    (origin : ∀ snapshot, cached = some snapshot →
      ∃ earlier, snapshot = sourceSignatureSnapshot rootName earlier) :
    currentSnapshot rootName refresh tree cached = sourceSignatureSnapshot rootName tree := by
  unfold currentSnapshot
  split
  · rfl
  next snapshot =>
    split
    · rfl
    next kept =>
      rcases origin snapshot rfl with ⟨earlier, rfl⟩
      simp only [Bool.or_eq_true, Bool.not_eq_true', not_or, Bool.not_eq_false] at kept
      exact (snapshot_eq_of_isCurrent injective kept.2).symm

theorem cacheAnswers_eq (injective : Function.Injective Hashing.blake2b)
    (calls : List (Bool × FileTree)) {cached : Option SourceSignatureSnapshot}
    (origin : ∀ snapshot, cached = some snapshot →
      ∃ earlier, snapshot = sourceSignatureSnapshot rootName earlier) :
    cacheAnswers rootName cached calls =
      calls.map fun call => sourceSignatureSnapshot rootName call.2 := by
  induction calls generalizing cached with
  | nil => rfl
  | cons call calls inductionHypothesis =>
      rcases call with ⟨refresh, tree⟩
      have answer := currentSnapshot_eq injective refresh tree origin
      rw [cacheAnswers, answer, List.map_cons]
      congr 1
      apply inductionHypothesis
      intro snapshot same
      exact ⟨tree, (Option.some.inj same).symm⟩

/-- The incremental check equals a full walk: a current snapshot is the snapshot of the later
tree, and a cache answers every call of a run as a fresh walk would. -/
theorem incremental_eq_rescan (rootName : Text)
    (injective : Function.Injective Hashing.blake2b) :
    (∀ earlier later : FileTree,
        isCurrent rootName later (sourceSignatureSnapshot rootName earlier) = true →
        sourceSignatureSnapshot rootName later = sourceSignatureSnapshot rootName earlier) ∧
      ∀ calls : List (Bool × FileTree),
        cacheAnswers rootName none calls =
          calls.map fun call => sourceSignatureSnapshot rootName call.2 :=
  ⟨fun _ _ current => snapshot_eq_of_isCurrent injective current,
    fun calls => cacheAnswers_eq injective calls (by simp)⟩

end Freshness

section Sample

attribute [local instance] Unicode.ascii Hashing.transparent

theorem transparent_injective : Function.Injective (@Hashing.blake2b Hashing.transparent) := by
  have octetText : Function.Injective fun octet : UInt8 => Char.ofNat octet.toNat := by
    intro octet other same
    have small : ∀ byte : UInt8, (Char.ofNat byte.toNat).toNat = byte.toNat := by
      intro byte
      have bound := byte.toNat_lt
      have valid : byte.toNat.isValidChar := Or.inl (by omega)
      rw [Char.ofNat, dif_pos valid]
      exact UInt32.toNat_ofNatLT
    have codes := congrArg Char.toNat same
    rw [small, small] at codes
    exact UInt8.toNat_inj.mp codes
  intro content other same
  cases content <;> cases other <;> simp_all [Hashing.blake2b]
  exact List.map_injective_iff.mpr octetText same

theorem incremental_eq_rescan_transparent :
    Function.Injective (@Hashing.blake2b Hashing.transparent) ∧
      ∀ calls : List (Bool × FileTree),
        cacheAnswers "wiki" none calls =
          calls.map fun call => sourceSignatureSnapshot "wiki" call.2 :=
  ⟨transparent_injective, (incremental_eq_rescan "wiki" transparent_injective).2⟩

end Sample

end LlmWikiServe
