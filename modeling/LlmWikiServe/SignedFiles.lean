import LlmWikiServe.CacheCoherence
import LlmWikiServe.PagePaths

/-!
# Signed files

The projection states of a walk are those of the signed files and of the marker directories of
the root.  Trees without symbolic links whose states have the same digest agree on them.
-/

namespace LlmWikiServe

namespace Text

/-- What stands before and after the last occurrence of a character. -/
theorem append_cons_cancel {char : Char} {first second firstTail secondTail : Text}
    (firstFree : char ∉ firstTail) (secondFree : char ∉ secondTail)
    (same : first ++ char :: firstTail = second ++ char :: secondTail) :
    first = second ∧ firstTail = secondTail := by
  rcases List.append_eq_append_iff.mp same with ⟨middle, rfl, tail⟩ | ⟨middle, rfl, tail⟩
  · cases middle with
    | nil => simpa using tail
    | cons head rest =>
        rw [List.cons_append, List.cons.injEq] at tail
        simp [tail.2] at firstFree
  · cases middle with
    | nil => simpa [eq_comm] using tail
    | cons head rest =>
        rw [List.cons_append, List.cons.injEq] at tail
        simp [tail.2] at secondFree

theorem join_injective {separator : Char} {first second : List Text}
    (firstFree : ∀ part ∈ first, separator ∉ part) (secondFree : ∀ part ∈ second, separator ∉ part)
    (firstNonempty : first ≠ []) (secondNonempty : second ≠ [])
    (same : join [separator] first = join [separator] second) : first = second := by
  rw [← List.splitOn_intercalate separator firstFree firstNonempty,
    ← List.splitOn_intercalate separator secondFree secondNonempty]
  exact congrArg (List.splitOn separator) same

theorem of_mem_join {char : Char} {separator : Text} {parts : List Text}
    (charIn : char ∈ join separator parts) : char ∈ separator ∨ ∃ part ∈ parts, char ∈ part := by
  induction parts with
  | nil => simp [join] at charIn
  | cons part rest inductionHypothesis =>
      cases rest with
      | nil => exact Or.inr ⟨part, by simp, by simpa [join] using charIn⟩
      | cons next others =>
          have unfolded : join separator (part :: next :: others) =
              part ++ (separator ++ join separator (next :: others)) := by
            simp [join]
          rw [unfolded, List.mem_append, List.mem_append] at charIn
          rcases charIn with here | separated | later
          · exact Or.inr ⟨part, List.mem_cons_self, here⟩
          · exact Or.inl separated
          · rcases inductionHypothesis later with separated | ⟨found, foundIn, here⟩
            · exact Or.inl separated
            · exact Or.inr ⟨found, List.mem_cons_of_mem _ foundIn, here⟩

end Text

/-! ## What a walk records -/

section Walk

variable [Unicode] [Hashing] {rootName : Text}

omit [Unicode] [Hashing] in
@[simp]
theorem Scan.append_projectionStates (first second : Scan) :
    (first.append second).projectionStates =
      first.projectionStates ++ second.projectionStates := rfl

omit [Unicode] [Hashing] in
theorem Scan.mem_concat_projectionStates {scans : List Scan} {state : PathState} :
    state ∈ (Scan.concat scans).projectionStates ↔ ∃ scan ∈ scans, state ∈ scan.projectionStates := by
  induction scans with
  | nil => simp [Scan.concat, Scan.empty]
  | cons head tail inductionHypothesis =>
      have unfolded : Scan.concat (head :: tail) = head.append (Scan.concat tail) := rfl
      rw [unfolded, append_projectionStates, List.mem_append, inductionHypothesis]
      simp

def fileState (path : RelPath) (stat : Stat) (content : Content) : PathState :=
  ⟨path, .file, stat.device, stat.inode, stat.mtimeNs, stat.size, Hashing.blake2b content⟩

/-- The recorded state of a marker directory, whose entries are not digested. -/
def markerState (path : RelPath) (stat : Stat) : PathState :=
  ⟨path, .dir, stat.device, stat.inode, stat.mtimeNs, stat.size, []⟩

theorem mem_scanFile {path : RelPath} {entry : Text × Node} {state : PathState} :
    state ∈ (scanFile rootName path entry).projectionStates ↔
      ∃ stat content, entry.2 = .file stat content ∧
        isSignatureFile rootName (path ++ [entry.1]) (.file stat content) = true ∧
        state = fileState (path ++ [entry.1]) stat content := by
  obtain ⟨name, node⟩ := entry
  cases node with
  | file stat content =>
      by_cases signed : isSignatureFile rootName (path ++ [name]) (.file stat content) = true
      · simp [scanFile, signed, pathState, Node.isSymlink, nodeState, Scan.signed, fileState]
      · simp [scanFile, signed, Scan.empty]
  | _ => simp [scanFile, Scan.empty]

theorem mem_scanMarker {path : RelPath} {entry : Text × Node} {state : PathState} :
    state ∈ (scanMarker rootName path entry).projectionStates ↔
      ∃ stat children, entry.2 = .dir stat children ∧ isMarkerPath (path ++ [entry.1]) = true ∧
        state = markerState (path ++ [entry.1]) stat := by
  obtain ⟨name, node⟩ := entry
  cases node with
  | dir stat children =>
      by_cases marker : isMarkerPath (path ++ [name]) = true
      · have named : name ∈ signatureMarkerNames := by
          simp only [isMarkerPath, decide_eq_true_eq, List.mem_map] at marker
          obtain ⟨known, knownIn, same⟩ := marker
          cases path with
          | nil => simpa [← List.singleton_injective same] using knownIn
          | cons part rest => simp at same
        simp [scanMarker, marker, named, pathState, Node.isSymlink, nodeState, Scan.signed,
          markerState, directoryDigest]
      · simp [scanMarker, marker, Scan.empty]
  | _ => simp [scanMarker, Scan.empty]

omit [Unicode] [Hashing] in
theorem isMarkerPath_below {path : RelPath} {name next : Text} (rest : RelPath) :
    isMarkerPath (path ++ name :: next :: rest) = false := by
  simp only [isMarkerPath, decide_eq_false_iff_not, List.mem_map, not_exists, not_and]
  intro marker _ same
  have lengths := congrArg List.length same
  simp only [List.length_append, List.length_cons, List.length_nil] at lengths
  omega

/-- A file or a marker directory found below a directory of the walk. -/
def Recorded (rootName : Text) (path : RelPath) (node : Node) (state : PathState) : Prop :=
  (∃ rest stat content, node.at? rest = some (.file stat content) ∧ rest ≠ [] ∧
      rest.dropLast.all walkEnters = true ∧
      isSignatureFile rootName (path ++ rest) (.file stat content) = true ∧
      state = fileState (path ++ rest) stat content) ∨
    ∃ name stat children, node.at? [name] = some (.dir stat children) ∧
      isMarkerPath (path ++ [name]) = true ∧ state = markerState (path ++ [name]) stat

theorem recorded_dir {stat : Stat} {children : Children}
    (distinct : (children.map Prod.fst).Nodup) {path : RelPath} {state : PathState} :
    Recorded rootName path (.dir stat children) state ↔
      (∃ entry ∈ children, state ∈ (scanMarker rootName path entry).projectionStates) ∨
        (∃ entry ∈ children, state ∈ (scanFile rootName path entry).projectionStates) ∨
        ∃ entry ∈ children, walkEnters entry.1 = true ∧
          Recorded rootName (path ++ [entry.1]) entry.2 state := by
  have child : ∀ {name node}, Keyed.get? children name = some node ↔ (name, node) ∈ children :=
    ⟨Keyed.mem_of_get?, Keyed.get?_of_mem distinct⟩
  simp only [mem_scanMarker, mem_scanFile]
  constructor
  · rintro (⟨rest, fileStat, content, located, nonempty, entered, signed, rfl⟩ | marked)
    · obtain ⟨name, others, rfl⟩ := List.exists_cons_of_ne_nil nonempty
      simp only [Node.at?, Node.child?, Node.resolve_dir, Option.bind_eq_some_iff] at located
      obtain ⟨node, found, located⟩ := located
      cases others with
      | nil =>
          obtain rfl : node = .file fileStat content := Option.some.inj located
          exact Or.inr (Or.inl ⟨_, child.mp found, fileStat, content, rfl, signed, rfl⟩)
      | cons next others =>
          rw [List.dropLast_cons_cons, List.all_cons, Bool.and_eq_true] at entered
          refine Or.inr (Or.inr ⟨_, child.mp found, entered.1, Or.inl ⟨next :: others, fileStat,
            content, located, List.cons_ne_nil _ _, entered.2, ?_, ?_⟩⟩)
          · simpa using signed
          · simp
    · obtain ⟨name, markerStat, entries, located, marker, rfl⟩ := marked
      simp only [Node.at?, Node.child?, Node.resolve_dir, Option.bind_eq_some_iff] at located
      obtain ⟨node, found, located⟩ := located
      obtain rfl : node = .dir markerStat entries := Option.some.inj located
      exact Or.inl ⟨_, child.mp found, markerStat, entries, rfl, marker, rfl⟩
  · rintro (marked | filed | ⟨entry, entryIn, entered, below | marked⟩)
    · obtain ⟨⟨name, node⟩, entryIn, markerStat, entries, rfl, marker, rfl⟩ := marked
      refine Or.inr ⟨name, markerStat, entries, ?_, marker, rfl⟩
      simp [Node.at?, Node.child?, child.mpr entryIn]
    · obtain ⟨⟨name, node⟩, entryIn, fileStat, content, rfl, signed, rfl⟩ := filed
      refine Or.inl ⟨[name], fileStat, content, ?_, List.cons_ne_nil _ _, rfl, signed, rfl⟩
      simp [Node.at?, Node.child?, child.mpr entryIn]
    · obtain ⟨rest, fileStat, content, located, nonempty, others, signed, rfl⟩ := below
      obtain ⟨next, more, rfl⟩ := List.exists_cons_of_ne_nil nonempty
      refine Or.inl ⟨entry.1 :: next :: more, fileStat, content, ?_, List.cons_ne_nil _ _, ?_, ?_, ?_⟩
      · rw [Node.at?, Node.child?, Node.resolve_dir]
        simp only [child.mpr entryIn, Option.bind_some, located]
      · rw [List.dropLast_cons_cons, List.all_cons, Bool.and_eq_true]
        exact ⟨entered, others⟩
      · simpa using signed
      · simp
    · obtain ⟨name, markerStat, entries, -, marker, -⟩ := marked
      rw [List.append_assoc, List.singleton_append, isMarkerPath_below] at marker
      simp at marker

/-- The states a walk records are those of the signed files and of the root's marker directories. -/
theorem mem_walkNode {node : Node} (valid : node.WellFormed) (linkless : node.Linkless)
    {path : RelPath} {state : PathState} :
    state ∈ (walkNode rootName path node).projectionStates ↔ Recorded rootName path node state := by
  induction valid generalizing path with
  | dir stat children names sorted nodes inductionHypothesis =>
      have distinct := (Node.WellFormed.dir stat children names sorted nodes).distinct
      have below : state ∈ (walkChildren rootName path children).projectionStates ↔
          ∃ entry ∈ children, walkEnters entry.1 = true ∧
            Recorded rootName (path ++ [entry.1]) entry.2 state := by
        simp only [walkChildren_eq_concat, Scan.mem_concat_projectionStates, List.mem_map,
          exists_exists_and_eq_and]
        refine exists_congr fun entry => and_congr_right fun entryIn => ?_
        have linklessEntry := linkless.child (Keyed.get?_of_mem distinct entryIn)
        rw [← inductionHypothesis entry entryIn linklessEntry, walkEntry]
        by_cases entered : walkEnters entry.1 = true
        · simp [entered]
        · simp [entered, Scan.empty]
      have own : (scanListing rootName path stat children).projectionStates =
          (Scan.concat (children.map (scanMarker rootName path))).projectionStates ++
            (Scan.concat (children.map (scanFile rootName path))).projectionStates := by
        unfold scanListing
        split <;> simp [Scan.empty]
      rw [recorded_dir distinct, walkNode, Scan.append_projectionStates, List.mem_append, below,
        own, List.mem_append, or_assoc]
      simp only [Scan.mem_concat_projectionStates, List.mem_map, exists_exists_and_eq_and]
  | file stat content =>
      refine iff_of_false (by simp [walkNode, Scan.empty]) ?_
      rintro (⟨rest, _, _, located, nonempty, -⟩ | ⟨name, _, _, located, -⟩)
      · obtain ⟨name, others, rfl⟩ := List.exists_cons_of_ne_nil nonempty
        simp [Node.at?, Node.child?] at located
      · simp [Node.at?, Node.child?] at located
  | special stat =>
      refine iff_of_false (by simp [walkNode, Scan.empty]) ?_
      rintro (⟨rest, _, _, located, nonempty, -⟩ | ⟨name, _, _, located, -⟩)
      · obtain ⟨name, others, rfl⟩ := List.exists_cons_of_ne_nil nonempty
        simp [Node.at?, Node.child?] at located
      · simp [Node.at?, Node.child?] at located
  | link location target => exact absurd (linkless [] _ rfl) (by simp [Node.isSymlink])
  | dangling location => exact absurd (linkless [] _ rfl) (by simp [Node.isSymlink])

end Walk

/-! ## Digests of the recorded states -/

section Digests

variable [Unicode] [Hashing] [Host]

omit [Unicode] [Hashing] [Host] in
theorem PathState.digestLine_eq (state : PathState) : state.digestLine =
    ((RelPath.asPosix state.relativePath ++ '\t' :: state.kind.text) ++
      '\t' :: Text.ofNat state.size) ++ '\t' :: state.digest := by
  simp [digestLine, Text.join, List.intercalate]

omit [Unicode] [Hashing] [Host] in
theorem not_mem_ofNat {char : Char} (noDigit : char.isDigit = false) (number : Nat) :
    char ∉ Text.ofNat number := by
  intro printed
  simp [Nat.isDigit_of_mem_toDigits (by decide) (by decide) printed] at noDigit

omit [Unicode] [Hashing] [Host] in
/-- The fields of a line are read back from the right, where its digest has no tab. -/
theorem digestLine_fields {first second : PathState}
    (firstDigest : '\t' ∉ first.digest) (secondDigest : '\t' ∉ second.digest)
    (same : first.digestLine = second.digestLine) :
    RelPath.asPosix first.relativePath = RelPath.asPosix second.relativePath ∧
      first.kind = second.kind ∧ first.size = second.size ∧ first.digest = second.digest := by
  have kinds : ∀ kind : PathKind, '\t' ∉ kind.text := by
    intro kind
    cases kind <;> decide
  have sizes : ∀ size, '\t' ∉ Text.ofNat size := not_mem_ofNat (by decide)
  have kindInjective : ∀ kind other : PathKind, kind.text = other.text → kind = other := by
    intro kind other
    cases kind <;> cases other <;> decide
  rw [PathState.digestLine_eq, PathState.digestLine_eq] at same
  obtain ⟨same, digests⟩ := Text.append_cons_cancel firstDigest secondDigest same
  obtain ⟨same, sizeTexts⟩ := Text.append_cons_cancel (sizes _) (sizes _) same
  obtain ⟨paths, kindTexts⟩ := Text.append_cons_cancel (kinds _) (kinds _) same
  exact ⟨paths, kindInjective _ _ kindTexts, Text.ofNat_injective sizeTexts, digests⟩

omit [Unicode] [Hashing] [Host] in
theorem digestLine_injective {first second : PathState}
    (firstValid : ∀ part ∈ first.relativePath, validName part)
    (secondValid : ∀ part ∈ second.relativePath, validName part)
    (firstDigest : '\t' ∉ first.digest) (secondDigest : '\t' ∉ second.digest)
    (same : first.digestLine = second.digestLine) :
    first.relativePath = second.relativePath ∧ first.kind = second.kind ∧
      first.digest = second.digest := by
  obtain ⟨paths, kinds, -, digests⟩ := digestLine_fields firstDigest secondDigest same
  exact ⟨asPosix_injective firstValid secondValid paths, kinds, digests⟩

/-- What is assumed of digests: they have no collisions and are written in hexadecimal. -/
structure Hashing.Ideal [Hashing] : Prop where
  blake2b_injective : Function.Injective Hashing.blake2b
  sha256_injective : Function.Injective Hashing.sha256
  hexadecimal : ∀ content, ∀ digit ∈ Hashing.blake2b content, digit ∈ ("0123456789abcdef" : Text)

/-- The walk gets to the path and signs a regular file there. -/
def isSignedPath (path : RelPath) : Bool :=
  path ≠ [] && path.dropLast.all walkEnters &&
    isSignatureFile rootName path (FileTree.textFile 0 [])

/-- No signed file has a newline in its path. -/
def FileTree.SingleLine (tree : FileTree) : Prop :=
  ∀ path content, isSignedPath path = true → contentAt? tree path = some content →
    ∀ part ∈ path, '\n' ∉ part

variable {tree first second : FileTree}

omit [Unicode] [Hashing] [Host] in
theorem contentAt?_eq_some_iff (linkless : tree.Linkless) {path : RelPath} {content : Content} :
    contentAt? tree path = some content ↔ ∃ stat, tree.at? path = some (.file stat content) := by
  unfold contentAt?
  cases found : tree.at? path with
  | none => simp
  | some node =>
      rw [Option.bind_some, (linkless.at? found).resolve]
      cases node <;> simp

omit [Unicode] [Hashing] [Host] in
theorem isDirAt_iff (linkless : tree.Linkless) {path : RelPath} :
    isDirAt tree path = true ↔ ∃ stat children, tree.at? path = some (.dir stat children) := by
  unfold isDirAt
  cases found : tree.at? path with
  | none => simp
  | some node =>
      have resolved := (linkless.at? found).resolve
      cases node <;> simp_all [Node.isDir]

theorem mem_projectionSignature (linkless : tree.Linkless) {state : PathState} :
    state ∈ (sourceSignatureSnapshot rootName tree).projectionSignature ↔
      (∃ path stat content, tree.at? path = some (.file stat content) ∧ isSignedPath path = true ∧
          state = fileState path stat content) ∨
        ∃ name stat children, tree.at? [name] = some (.dir stat children) ∧
          isMarkerPath [name] = true ∧ state = markerState [name] stat := by
  unfold sourceSignatureSnapshot
  cases rooted : tree.root with
  | none => simp [FileTree.at?, rooted]
  | some root =>
      have located : ∀ path, tree.at? path = root.at? path := by
        intro path
        simp [FileTree.at?, rooted]
      simp only [mem_walkNode (tree.wellFormed root rooted) (linkless root rooted), located]
      refine or_congr (exists_congr fun path => exists_congr fun stat =>
        exists_congr fun content => ?_) Iff.rfl
      have shape : isSignatureFile rootName path (.file stat content) =
          isSignatureFile rootName path (FileTree.textFile 0 []) := rfl
      simp [isSignedPath, shape, and_assoc]

structure PathState.Printable (state : PathState) : Prop where
  names : ∀ part ∈ state.relativePath, validName part
  line : ∀ part ∈ state.relativePath, '\n' ∉ part
  digest : '\t' ∉ state.digest ∧ '\n' ∉ state.digest

theorem printable_state (ideal : Hashing.Ideal) (linkless : tree.Linkless)
    (singleLine : tree.SingleLine) {state : PathState}
    (recorded : state ∈ (sourceSignatureSnapshot rootName tree).projectionSignature) :
    state.Printable := by
  rcases (mem_projectionSignature linkless).mp recorded with
    ⟨path, stat, content, found, signed, rfl⟩ | ⟨name, stat, children, found, marker, rfl⟩
  · have digits := ideal.hexadecimal content
    refine ⟨FileTree.validName_of_at? found, ?_, fun tab => ?_, fun newline => ?_⟩
    · exact singleLine path content signed ((contentAt?_eq_some_iff linkless).mpr ⟨stat, found⟩)
    · exact absurd (digits _ tab) (by decide)
    · exact absurd (digits _ newline) (by decide)
  · refine ⟨FileTree.validName_of_at? found, ?_, by simp [markerState]⟩
    simp only [isMarkerPath, decide_eq_true_eq, List.mem_map] at marker
    obtain ⟨known, knownIn, same⟩ := marker
    obtain rfl := List.singleton_injective same
    have lines : ∀ known ∈ signatureMarkerNames, '\n' ∉ known := by decide
    simpa [markerState] using lines known knownIn

omit [Unicode] [Hashing] [Host] in
theorem digestLine_newline {state : PathState} (printable : state.Printable) :
    '\n' ∉ state.digestLine := by
  have kinds : ∀ kind : PathKind, '\n' ∉ kind.text := by
    intro kind
    cases kind <;> decide
  have path : '\n' ∉ RelPath.asPosix state.relativePath := by
    unfold RelPath.asPosix
    split
    · decide
    · intro printed
      rcases Text.of_mem_join printed with separated | ⟨part, partIn, printed⟩
      · exact absurd separated (by decide)
      · exact printable.line part partIn printed
  rw [PathState.digestLine_eq]
  simp [path, kinds, not_mem_ofNat, printable.digest.2]

/-- Trees filed under the same digest have the same paths, kinds and digests recorded. -/
theorem recorded_of_digest (ideal : Hashing.Ideal) (firstLinkless : first.Linkless)
    (secondLinkless : second.Linkless) (firstLines : first.SingleLine)
    (secondLines : second.SingleLine) (same : treeDigest first = treeDigest second)
    {state : PathState}
    (recorded : state ∈ (sourceSignatureSnapshot rootName first).projectionSignature) :
    ∃ other ∈ (sourceSignatureSnapshot rootName second).projectionSignature,
      state.relativePath = other.relativePath ∧ state.kind = other.kind ∧
        state.digest = other.digest := by
  have firstPrintable := fun state => @printable_state _ _ _ first ideal firstLinkless firstLines state
  have secondPrintable :=
    fun state => @printable_state _ _ _ second ideal secondLinkless secondLines state
  unfold treeDigest projectionSignatureDigest at same
  generalize (sourceSignatureSnapshot rootName first).projectionSignature = states at *
  generalize (sourceSignatureSnapshot rootName second).projectionSignature = others at *
  have nonempty : states ≠ [] := List.ne_nil_of_mem recorded
  have otherNonempty : others ≠ [] := by
    rintro rfl
    simp [nonempty] at same
  rw [if_neg nonempty, if_neg otherNonempty] at same
  have lines : states.map PathState.digestLine = others.map PathState.digestLine := by
    refine Text.join_injective ?_ ?_ (by simpa) (by simpa)
      (ideal.sha256_injective (List.append_cancel_left same))
    · intro line lineIn
      obtain ⟨state, stateIn, rfl⟩ := List.mem_map.mp lineIn
      exact digestLine_newline (firstPrintable state stateIn)
    · intro line lineIn
      obtain ⟨state, stateIn, rfl⟩ := List.mem_map.mp lineIn
      exact digestLine_newline (secondPrintable state stateIn)
  have lineIn := List.mem_map_of_mem (f := PathState.digestLine) recorded
  rw [lines] at lineIn
  obtain ⟨other, otherIn, sameLine⟩ := List.mem_map.mp lineIn
  have statePrintable := firstPrintable state recorded
  have otherPrintable := secondPrintable other otherIn
  exact ⟨other, otherIn, digestLine_injective statePrintable.names otherPrintable.names
    statePrintable.digest.1 otherPrintable.digest.1 sameLine.symm⟩

theorem contentAt?_of_digest (ideal : Hashing.Ideal) (firstLinkless : first.Linkless)
    (secondLinkless : second.Linkless) (firstLines : first.SingleLine)
    (secondLines : second.SingleLine) (same : treeDigest first = treeDigest second)
    {path : RelPath} (signed : isSignedPath path = true) :
    contentAt? first path = contentAt? second path := by
  have passed : ∀ {tree other : FileTree}, tree.Linkless → other.Linkless → tree.SingleLine →
      other.SingleLine → treeDigest tree = treeDigest other → ∀ content,
      contentAt? tree path = some content → contentAt? other path = some content := by
    intro tree other treeLinkless otherLinkless treeLines otherLines same content found
    obtain ⟨stat, found⟩ := (contentAt?_eq_some_iff treeLinkless).mp found
    have recorded := (mem_projectionSignature treeLinkless).mpr
      (Or.inl ⟨path, stat, content, found, signed, rfl⟩)
    obtain ⟨state, recorded, paths, kinds, digests⟩ :=
      recorded_of_digest ideal treeLinkless otherLinkless treeLines otherLines same recorded
    rcases (mem_projectionSignature otherLinkless).mp recorded with
      ⟨otherPath, otherStat, otherContent, otherFound, -, rfl⟩ | ⟨_, _, _, _, _, rfl⟩
    · obtain rfl : path = otherPath := paths
      obtain rfl := ideal.blake2b_injective digests
      exact (contentAt?_eq_some_iff otherLinkless).mpr ⟨otherStat, otherFound⟩
    · simp [fileState, markerState] at kinds
  ext content
  exact ⟨passed firstLinkless secondLinkless firstLines secondLines same content,
    passed secondLinkless firstLinkless secondLines firstLines same.symm content⟩

theorem isDirAt_of_digest (ideal : Hashing.Ideal) (firstLinkless : first.Linkless)
    (secondLinkless : second.Linkless) (firstLines : first.SingleLine)
    (secondLines : second.SingleLine) (same : treeDigest first = treeDigest second)
    {name : Text} (marker : name ∈ signatureMarkerNames) :
    isDirAt first [name] = isDirAt second [name] := by
  have markerPath : isMarkerPath [name] = true := by
    simpa [isMarkerPath] using marker
  have passed : ∀ {tree other : FileTree}, tree.Linkless → other.Linkless → tree.SingleLine →
      other.SingleLine → treeDigest tree = treeDigest other →
      isDirAt tree [name] = true → isDirAt other [name] = true := by
    intro tree other treeLinkless otherLinkless treeLines otherLines same found
    obtain ⟨stat, children, found⟩ := (isDirAt_iff treeLinkless).mp found
    have recorded := (mem_projectionSignature treeLinkless).mpr
      (Or.inr ⟨name, stat, children, found, markerPath, rfl⟩)
    obtain ⟨state, recorded, paths, kinds, -⟩ :=
      recorded_of_digest ideal treeLinkless otherLinkless treeLines otherLines same recorded
    rcases (mem_projectionSignature otherLinkless).mp recorded with
      ⟨_, _, _, _, _, rfl⟩ | ⟨otherName, otherStat, entries, otherFound, -, rfl⟩
    · simp [fileState, markerState] at kinds
    · obtain rfl := List.singleton_injective paths
      exact (isDirAt_iff otherLinkless).mpr ⟨otherStat, entries, otherFound⟩
  rw [Bool.eq_iff_iff]
  exact ⟨passed firstLinkless secondLinkless firstLines secondLines same,
    passed secondLinkless firstLinkless secondLines firstLines same.symm⟩

end Digests

end LlmWikiServe
