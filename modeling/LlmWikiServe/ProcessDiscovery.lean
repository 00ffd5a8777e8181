import LlmWikiServe.CommandLines
import LlmWikiServe.Foundation.Chains
import LlmWikiServe.Foundation.Keyed
import LlmWikiServe.ServeArguments

/-!
# Discovery of serving processes

Processes are told by their command lines.  Those that serve one endpoint are one candidate: the
process that listens there, which counts as verified if it is one of them or descends from one.
-/

namespace LlmWikiServe.Instances

open ManagedContext

/-! ## Processes -/

structure ProcessEntry where
  pid : Int
  argv : List Text
  commandLine : Text := []
  cwd : Text := []
  createTime : Option PyFloat := none
  ppid : Option Int := none

structure ListenerEndpoint where
  pid : Int
  host : Text
  port : Int
  probeHost : Text

structure ServeProcessCandidate where
  pid : Int
  host : Text
  port : Int
  root : Text
  listenerPidVerified : Bool := false
  probeHost : Text := []
  deriving DecidableEq

/-- The paths of the platform, where the home directories that they name are known. -/
class Paths where
  /-- `Path(text).expanduser()` -/
  expanduser : Text → Text
  isAbsolute : Text → Bool
  /-- `first / second` -/
  join : Text → Text → Text
  /-- `str(path.resolve(strict=False))`, absent where it raises an `OSError` or a `ValueError`. -/
  resolve : Text → Option Text

section Commands

variable [Unicode]

def commandBasename (token : Text) : Text :=
  Text.afterLast '/' (Text.rstripBy (· = '/') (Text.replaceChar '\\' '/' token))

def withoutEnding (endings : List Text) (name : Text) : Text :=
  match endings.find? fun ending => Text.endsWith name ending with
  | some ending => name.take (name.length - ending.length)
  | none => name

def isLlmwikiServeCommand (token : Text) : Bool :=
  withoutEnding [".exe", ".cmd", ".bat", ".ps1"] (Text.lower (commandBasename token)) =
    "llmwiki-serve"

omit [Unicode] in
def isServeModuleName (name : Text) : Bool :=
  name ∈ [("llmwiki_serve" : Text), "llmwiki_serve.cli"]

omit [Unicode] in
def isLlmwikiServeModule (token : Text) : Bool :=
  Text.endsWith (Text.replaceChar '\\' '/' token) "/llmwiki_serve/cli.py" || isServeModuleName token

/-- The arguments behind `serve`. -/
def serveArgsFromArgv : List Text → Option (List Text)
  | [] => none
  | token :: rest =>
      match rest with
      | [] => none
      | second :: others =>
          if token = "-m" ∧ isServeModuleName second ∧ others.head? = some "serve" then
            some others.tail
          else if (isLlmwikiServeCommand token ∨ isLlmwikiServeModule token) ∧ second = "serve" then
            some others
          else serveArgsFromArgv (second :: others)

end Commands

section Discovery

variable [Unicode] [Numbers] [Paths]

omit [Unicode] [Numbers] in
def resolveProcessRoot (root cwd : Text) : Text :=
  let path := Paths.expanduser root
  if root = [] then []
  else if Paths.isAbsolute path then (Paths.resolve path).getD root
  else if cwd = [] then root
  else (Paths.resolve (Paths.join (Paths.expanduser cwd) path)).getD root

omit [Unicode] [Numbers] in
/-- Without a working directory a relative root stays as it is. -/
theorem resolveProcessRoot_relative {root : Text}
    (relative : Paths.isAbsolute (Paths.expanduser root) = false) :
    resolveProcessRoot root [] = root := by
  unfold resolveProcessRoot
  by_cases empty : root = []
  · rw [if_pos empty, empty]
  · rw [if_neg empty, relative, if_neg Bool.false_ne_true, if_pos rfl]

def parseServeProcessCandidate (entry : ProcessEntry) : Option ServeProcessCandidate :=
  (serveArgsFromArgv entry.argv).bind fun serveArgs =>
    (parseServeArgs serveArgs).map fun parsed =>
      { pid := entry.pid
        host := parsed.host
        port := parsed.port
        root := resolveProcessRoot parsed.root entry.cwd }

omit [Numbers] [Paths] in
def normalizedEndpointHost (host : Text) : Text :=
  let normalized := Text.lower (Text.strip host)
  let bare :=
    if Text.startsWith normalized "[" && Text.endsWith normalized "]" then
      (normalized.drop 1).dropLast
    else normalized
  if bare ∈ [("" : Text), "0.0.0.0", "::", "localhost"] then "127.0.0.1" else bare

omit [Numbers] [Paths] in
def endpointKey (host : Text) (port : Int) : Text × Int := (normalizedEndpointHost host, port)

omit [Numbers] [Paths] in
def ServeProcessCandidate.endpoint (candidate : ServeProcessCandidate) : Text × Int :=
  endpointKey candidate.host candidate.port

/-! ## One candidate for an endpoint -/

omit [Unicode] [Numbers] [Paths] in
/-- The parent of a process, unless it is none. -/
def parentOf (parentPids : List (Int × Int)) (pid : Int) : Option Int :=
  (Keyed.get? parentPids pid).filter (0 < ·)

omit [Unicode] [Numbers] [Paths] in
def pidMatchesCandidateTree (pid : Int) (candidatePids : List Int)
    (parentPids : List (Int × Int)) : Bool :=
  pid ∈ candidatePids ||
    Chain.search (parentOf parentPids) (· ∈ candidatePids) (parentPids.length + 1) [] pid

omit [Unicode] [Numbers] [Paths] in
def selectEndpointCandidate (first : ServeProcessCandidate)
    (candidates : List ServeProcessCandidate) (listener : Option ListenerEndpoint)
    (parentPids : List (Int × Int)) : ServeProcessCandidate :=
  match listener with
  | none => first
  | some listener =>
      if listener.pid ≤ 0 then first
      else
        let listening := candidates.find? fun candidate => candidate.pid = listener.pid
        { pid := listener.pid
          host := (listening.getD first).host
          port := (listening.getD first).port
          root := (listening.map ServeProcessCandidate.root).getD []
          listenerPidVerified := pidMatchesCandidateTree listener.pid
            (candidates.map ServeProcessCandidate.pid) parentPids
          probeHost := listener.probeHost }

omit [Unicode] [Numbers] [Paths] in
/-- `{entry.pid: entry.ppid for entry in entries if entry.ppid is not None}` -/
def parentPidsOf (entries : List ProcessEntry) : List (Int × Int) :=
  Keyed.update [] (entries.filterMap fun entry => entry.ppid.map fun ppid => (entry.pid, ppid))

def discoverServeProcesses (entries : List ProcessEntry)
    (listeners : List ((Text × Int) × ListenerEndpoint)) : List ServeProcessCandidate :=
  (Keyed.group ServeProcessCandidate.endpoint
    (entries.filterMap parseServeProcessCandidate)).filterMap fun group =>
      group.2.head?.map fun first =>
        selectEndpointCandidate first group.2 (Keyed.get? listeners group.1)
          (parentPidsOf entries)

/-! ## What is discovered -/

omit [Unicode] [Numbers] [Paths] in
/-- The processes that a process comes from, itself included. -/
abbrev DescendsFrom (parentPids : List (Int × Int)) : Int → Int → Prop :=
  Relation.ReflTransGen fun child parent => parentOf parentPids child = some parent

omit [Unicode] [Numbers] [Paths] in
theorem pidMatchesCandidateTree_iff {pid : Int} {candidatePids : List Int}
    {parentPids : List (Int × Int)} :
    pidMatchesCandidateTree pid candidatePids parentPids = true ↔
      ∃ ancestor ∈ candidatePids, DescendsFrom parentPids pid ancestor := by
  have support : ∀ node, (parentOf parentPids node).isSome = true →
      node ∈ parentPids.map Prod.fst := by
    intro node found
    apply Keyed.get?_isSome_iff.mp
    cases stored : Keyed.get? parentPids node with
    | none => simp [parentOf, stored] at found
    | some parent => rfl
  have climbed := @Chain.search_eq_true_iff _ (parentOf parentPids) (· ∈ candidatePids) pid _ _
    support
  rw [List.length_map] at climbed
  rw [pidMatchesCandidateTree, Bool.or_eq_true, decide_eq_true_eq, climbed]
  constructor
  · rintro (listed | ⟨ancestor, follows, listed⟩)
    · exact ⟨pid, listed, .refl⟩
    · exact ⟨ancestor, by simpa using listed, follows.to_reflTransGen⟩
  · rintro ⟨ancestor, listed, descends⟩
    rcases Relation.reflTransGen_iff_eq_or_transGen.mp descends with rfl | follows
    · exact .inl listed
    · exact .inr ⟨ancestor, follows, by simpa using listed⟩

omit [Numbers] [Paths] in
theorem selectEndpointCandidate_endpoint {first : ServeProcessCandidate}
    {candidates : List ServeProcessCandidate} {endpoint : Text × Int}
    (here : first.endpoint = endpoint)
    (all : ∀ candidate ∈ candidates, candidate.endpoint = endpoint)
    (listener : Option ListenerEndpoint) (parentPids : List (Int × Int)) :
    (selectEndpointCandidate first candidates listener parentPids).endpoint = endpoint := by
  unfold selectEndpointCandidate
  split
  · exact here
  · split_ifs
    · exact here
    · next listener _ =>
        cases found : candidates.find? fun candidate => candidate.pid = listener.pid with
        | none => exact here
        | some listening => exact all listening (List.mem_of_find?_eq_some found)

omit [Unicode] [Numbers] [Paths] in
/-- A candidate is verified exactly where the listener is one of its processes or comes from one. -/
theorem selectEndpointCandidate_verified {first : ServeProcessCandidate}
    {candidates : List ServeProcessCandidate} (unverified : first.listenerPidVerified = false)
    (listener : Option ListenerEndpoint) (parentPids : List (Int × Int)) :
    (selectEndpointCandidate first candidates listener parentPids).listenerPidVerified = true ↔
      ∃ found ∈ listener, 0 < found.pid ∧ ∃ serving ∈ candidates,
        DescendsFrom parentPids found.pid serving.pid := by
  unfold selectEndpointCandidate
  cases listener with
  | none => simp [unverified]
  | some listener =>
      simp only [Option.mem_def, Option.some.injEq, exists_eq_left']
      split_ifs with nobody
      · rw [unverified]
        simp only [Bool.false_eq_true, false_iff, not_and]
        intro positive
        omega
      · rw [pidMatchesCandidateTree_iff]
        simp only [List.mem_map, exists_exists_and_eq_and]
        exact (and_iff_right (by omega)).symm

omit [Unicode] [Numbers] [Paths] in
theorem selectEndpointCandidate_root {first : ServeProcessCandidate}
    {candidates : List ServeProcessCandidate} (among : first ∈ candidates)
    {listener : Option ListenerEndpoint} {parentPids : List (Int × Int)}
    (known : (selectEndpointCandidate first candidates listener parentPids).root ≠ []) :
    ∃ serving ∈ candidates,
      serving.pid = (selectEndpointCandidate first candidates listener parentPids).pid ∧
      serving.root = (selectEndpointCandidate first candidates listener parentPids).root := by
  unfold selectEndpointCandidate at known ⊢
  cases listener with
  | none => exact ⟨first, among, rfl, rfl⟩
  | some listener =>
      dsimp only at known ⊢
      split_ifs at known ⊢
      · exact ⟨first, among, rfl, rfl⟩
      · cases found : candidates.find? fun candidate => candidate.pid = listener.pid with
        | none => simp [found] at known
        | some listening =>
            have same := List.find?_some found
            exact ⟨listening, List.mem_of_find?_eq_some found, by simpa using same, rfl⟩

theorem parse_unverified {entry : ProcessEntry} {candidate : ServeProcessCandidate}
    (parsed : parseServeProcessCandidate entry = some candidate) :
    candidate.listenerPidVerified = false := by
  obtain ⟨serveArgs, -, parsed⟩ := Option.bind_eq_some_iff.mp parsed
  obtain ⟨settings, -, rfl⟩ := Option.map_eq_some_iff.mp parsed
  rfl

omit [Unicode] [Numbers] [Paths] in
theorem map_filterMap_eq {Item Picked Key : Type} {items : List Item} {pick : Item → Option Picked}
    {key : Item → Key} {pickedKey : Picked → Key}
    (each : ∀ item ∈ items, ∃ picked, pick item = some picked ∧ pickedKey picked = key item) :
    (items.filterMap pick).map pickedKey = items.map key := by
  induction items with
  | nil => rfl
  | cons item items inductionHypothesis =>
      obtain ⟨⟨picked, found, same⟩, others⟩ := List.forall_mem_cons.mp each
      rw [List.filterMap_cons_some found, List.map_cons, List.map_cons, same,
        inductionHypothesis others]

omit [Numbers] [Paths] in
/-- The processes of an endpoint are those that serve it, with one of them in front. -/
theorem serving_group {serving : List ServeProcessCandidate}
    {entry : (Text × Int) × List ServeProcessCandidate}
    (among : entry ∈ Keyed.group ServeProcessCandidate.endpoint serving) :
    ∃ first, entry.2.head? = some first ∧ first ∈ serving ∧ first.endpoint = entry.1 ∧
      ∀ candidate, candidate ∈ entry.2 ↔ candidate ∈ serving ∧ candidate.endpoint = entry.1 := by
  have group := Keyed.eq_filter_of_mem_group among
  have members : ∀ candidate, candidate ∈ entry.2 ↔
      candidate ∈ serving ∧ candidate.endpoint = entry.1 := by
    intro candidate
    rw [group, List.mem_filter, decide_eq_true_eq]
  obtain ⟨candidate, candidateIn, same⟩ := Keyed.mem_map_fst_group.mp (List.mem_map_of_mem among)
  have nonempty : entry.2 ≠ [] :=
    List.ne_nil_of_mem ((members candidate).mpr ⟨candidateIn, same⟩)
  obtain ⟨first, rest, shape⟩ := List.exists_cons_of_ne_nil nonempty
  have firstIn := (members first).mp (shape ▸ List.mem_cons_self)
  exact ⟨first, by rw [shape]; rfl, firstIn.1, firstIn.2, members⟩

/-- Every endpoint that a process serves has one candidate.  It is verified exactly where the
listener of the endpoint is, or descends from, a process that serves it, and it has no root but
that of its own process. -/
theorem discoverServeProcesses_spec (entries : List ProcessEntry)
    (listeners : List ((Text × Int) × ListenerEndpoint)) :
    ((discoverServeProcesses entries listeners).map ServeProcessCandidate.endpoint).Nodup ∧
    (∀ endpoint, endpoint ∈ (discoverServeProcesses entries listeners).map
        ServeProcessCandidate.endpoint ↔
      ∃ serving ∈ entries.filterMap parseServeProcessCandidate, serving.endpoint = endpoint) ∧
    ∀ candidate ∈ discoverServeProcesses entries listeners,
      (candidate.root ≠ [] → ∃ serving ∈ entries.filterMap parseServeProcessCandidate,
        serving.endpoint = candidate.endpoint ∧ serving.pid = candidate.pid ∧
          serving.root = candidate.root) ∧
      (candidate.listenerPidVerified = true ↔
        ∃ listener ∈ Keyed.get? listeners candidate.endpoint, 0 < listener.pid ∧
          ∃ serving ∈ entries.filterMap parseServeProcessCandidate,
            serving.endpoint = candidate.endpoint ∧
              DescendsFrom (parentPidsOf entries) listener.pid serving.pid) := by
  have keys : (discoverServeProcesses entries listeners).map ServeProcessCandidate.endpoint =
      (Keyed.group ServeProcessCandidate.endpoint
        (entries.filterMap parseServeProcessCandidate)).map Prod.fst := by
    apply map_filterMap_eq
    intro entry among
    obtain ⟨first, head, -, here, members⟩ := serving_group among
    exact ⟨_, by rw [head]; rfl, selectEndpointCandidate_endpoint here
      (fun candidate candidateIn => ((members candidate).mp candidateIn).2) _ _⟩
  rw [keys]
  refine ⟨Keyed.nodup_map_fst_group _ _, fun endpoint => Keyed.mem_map_fst_group, ?_⟩
  intro candidate among
  obtain ⟨entry, entryIn, selected⟩ := List.mem_filterMap.mp among
  obtain ⟨first, head, firstIn, here, members⟩ := serving_group entryIn
  rw [head, Option.map_some, Option.some.injEq] at selected
  have endpoint : candidate.endpoint = entry.1 := by
    rw [← selected]
    exact selectEndpointCandidate_endpoint here
      (fun candidate candidateIn => ((members candidate).mp candidateIn).2) _ _
  obtain ⟨process, -, parsed⟩ := List.mem_filterMap.mp firstIn
  have verified := @selectEndpointCandidate_verified first entry.2 (parse_unverified parsed)
    (Keyed.get? listeners entry.1) (parentPidsOf entries)
  have root := @selectEndpointCandidate_root first entry.2 ((members first).mpr ⟨firstIn, here⟩)
    (Keyed.get? listeners entry.1) (parentPidsOf entries)
  rw [selected] at verified root
  rw [endpoint]
  simp only [members, and_assoc] at verified root
  exact ⟨root, verified⟩

/-! ## Started servers -/

omit [Unicode] [Numbers] [Paths] in
/-- `process_entry_from_command_line` on Windows. -/
def windowsProcessEntry (pid : Int) (commandLine : Text) : Option ProcessEntry :=
  let argv := splitWindowsCommandLine commandLine
  if argv = [] then none else some { pid, argv, commandLine }

end Discovery

section Sample

attribute [local instance] Unicode.ascii plainNumbers

/-- Paths with slashes and without links. -/
@[reducible]
def plainPaths : Paths where
  expanduser text := text
  isAbsolute text := Text.startsWith text "/"
  join first second := first ++ '/' :: second
  resolve text := some text

attribute [local instance] plainPaths

theorem declared_wiki : ∀ option ∈ [.inline "--port" "9000", .separate "--host" "0.0.0.0"] ++
    [.flag "--allow-drafts", .inline "--vector-model" "small"], ServeOption.Declared option := by
  intro option given
  fin_cases given
  · exact ⟨by decide, by decide, fun _ => by decide⟩
  · exact ⟨by decide, by decide, fun port => absurd port (by decide)⟩
  · exact (by decide : ("--allow-drafts" : Text) ∈ serveFlags)
  · exact ⟨by decide, by decide, fun port => absurd port (by decide)⟩

theorem plain_wiki : Text.startsWith "wiki" "-" = false := by decide

/-- `serve --port=9000 --host 0.0.0.0 wiki --allow-drafts --vector-model=small` -/
def wikiCommand : ServeCommand where
  before := [.inline "--port" "9000", .separate "--host" "0.0.0.0"]
  root := "wiki"
  after := [.flag "--allow-drafts", .inline "--vector-model" "small"]
  declared := declared_wiki
  root_plain := plain_wiki

end Sample

end LlmWikiServe.Instances
