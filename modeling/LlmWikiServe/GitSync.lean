import LlmWikiServe.Foundation.Text
import LlmWikiServe.Foundation.Transition

/-!
# Git synchronization

One attempt to fetch and fast-forward the served checkout.  Every git command is a step on the
repository whose outcome is chosen from outside: it may succeed, exit non-zero or be killed at its
timeout.
-/

namespace LlmWikiServe.GitSync

open Transition

inductive GitSyncState where
  | idle
  | synced
  | updated
  | blocked
  | error
  deriving DecidableEq

structure GitSyncConfig where
  cooldownSeconds : ℚ := 60
  waitSeconds : ℚ := 5
  remote : Text := "origin"
  branch : Option Text := none

/-- What the commands see of a work tree. -/
structure Repository where
  head : Text
  /-- Absent when HEAD is detached. -/
  branch : Option Text
  /-- `branch.<name>.merge` -/
  mergeRef : Text → Option Text
  /-- The branches of the remote. -/
  remoteBranch : Text → Option Text
  /-- The remote-tracking refs. -/
  trackingRef : Text → Option Text
  /-- The porcelain status of the tracked files. -/
  changes : Text

class History where
  isAncestor : Text → Text → Bool

class Messages where
  repr : Text → Text
  sanitize : Text → Text
  timedOut : Text
  unexpected : Text → Text

/-- The places of `_sync_once`: the git commands, and the writes of the syncer's fields. -/
inductive Call where
  | topLevel
  | currentBranch
  | upstreamBranch
  | fetch
  | remoteSha
  | headSha
  | status
  | behind
  | ahead
  | merge
  | mergedSha
  | note
  /-- `self.generation += 1` -/
  | count
  deriving DecidableEq

/-- What becomes of a command.  A killed one may have had its effect. -/
inductive Outcome where
  | succeeds
  | exits (detail : Text)
  | timesOut (effective : Bool)
  deriving DecidableEq

inductive SyncError where
  | gitSyncError (message : Text) (state : GitSyncState)
  | timeoutExpired
  | valueError
  deriving DecidableEq

/-- The fields of the syncer that an attempt uses, and the repository. -/
structure World where
  repository : Repository
  repoRoot : Bool := false
  branch : Option Text := none
  headSha : Option Text := none
  remoteSha : Option Text := none
  fetchCount : Nat := 0
  generation : Nat := 0

/-- What is left of an attempt: nothing but its value or error, or the next place with what happens
there and how the attempt goes on. -/
inductive Attempt (α : Type) where
  | ends (result : Except SyncError α)
  | step (call : Call) (effect : Outcome → World → World) (next : Outcome → World → Attempt α)

namespace Attempt

variable {α β : Type}

def done (value : α) : Attempt α := .ends (.ok value)

def raise (error : SyncError) : Attempt α := .ends (.error error)

def andThen : Attempt α → (α → Attempt β) → Attempt β
  | .ends (.ok value), next => next value
  | .ends (.error error), _ => .raise error
  | .step call effect rest, next =>
      .step call effect fun outcome world => (rest outcome world).andThen next

def modify (call : Call) (change : World → World) : Attempt Unit :=
  .step call (fun _ => change) fun _ _ => .done ()

/-- The attempt from here to its end, with nothing in between. -/
def run (outcomes : Call → Outcome) : Attempt α → World → Except SyncError α × World
  | .ends result, world => (result, world)
  | .step call effect next, world =>
      (next (outcomes call) world).run outcomes (effect (outcomes call) world)

end Attempt

section SyncOnce

variable [History] [Messages] (config : GitSyncConfig)

/-- A command that reads `output` from the repository, `none` where git has no answer; its output
is stripped. -/
def gitText {α : Type} (name : Text) (call : Call) (output : Repository → Option α) : Attempt α :=
  .step call (fun _ world => world) fun outcome world =>
    match outcome, output world.repository with
    | .succeeds, some text => .done text
    | .succeeds, none => .raise (.gitSyncError ("git " ++ name ++ " failed: ") .error)
    | .exits detail, _ =>
        .raise (.gitSyncError ("git " ++ name ++ " failed: " ++ Text.strip detail) .error)
    | .timesOut _, _ => .raise .timeoutExpired

/-- A command whose exit code answers a question. -/
def gitOk (call : Call) (answer : Bool) : Attempt Bool :=
  .step call (fun _ world => world) fun outcome _ =>
    match outcome with
    | .succeeds => .done answer
    | .exits _ => .done false
    | .timesOut _ => .raise .timeoutExpired

/-- What a command leaves that changes the repository, `none` where git refuses to. -/
def World.changed (effect : Repository → Option Repository) (outcome : Outcome) (world : World) :
    World :=
  match outcome, effect world.repository with
  | .succeeds, some changed => { world with repository := changed }
  | .timesOut true, some changed => { world with repository := changed }
  | _, _ => world

def gitChange (name : Text) (call : Call) (effect : Repository → Option Repository) :
    Attempt Unit :=
  .step call (World.changed effect) fun outcome world =>
    match outcome, effect world.repository with
    | .succeeds, some _ => .done ()
    | .succeeds, none => .raise (.gitSyncError ("git " ++ name ++ " failed: ") .error)
    | .exits detail, _ =>
        .raise (.gitSyncError ("git " ++ name ++ " failed: " ++ Text.strip detail) .error)
    | .timesOut _, _ => .raise .timeoutExpired

/-- `resolve_git_repo_root`, unless the root is known. -/
def resolveRepoRoot : Attempt Unit :=
  .step .topLevel
    (fun outcome world =>
      if outcome = .succeeds then { world with repoRoot := true } else world)
    fun outcome world =>
      if world.repoRoot = true ∨ outcome = .succeeds then .done () else .raise .valueError

/-- The branch a local branch tracks, its own name where none is configured. -/
def upstreamBranch (currentBranch : Text) : Attempt Text :=
  .step .upstreamBranch (fun _ world => world) fun outcome world =>
    match outcome with
    | .timesOut _ => .raise .timeoutExpired
    | .exits _ => .done currentBranch
    | .succeeds =>
        let value := (world.repository.mergeRef currentBranch).getD []
        let headsPrefix : Text := "refs/heads/"
        .done (if Text.startsWith value headsPrefix then value.drop headsPrefix.length
          else currentBranch)

/-- `fetch +refs/heads/<branch>:<ref>` -/
def fetchEffect (remoteBranch ref : Text) (repository : Repository) : Option Repository :=
  (repository.remoteBranch remoteBranch).map fun fetched =>
    { repository with trackingRef := Function.update repository.trackingRef ref (some fetched) }

/-- `merge --ff-only`, which has nothing to do where HEAD contains the target. -/
def mergeEffect (target : Text) (repository : Repository) : Option Repository :=
  if History.isAncestor repository.head target then some { repository with head := target }
  else if History.isAncestor target repository.head then some repository
  else none

/-- Refuse to fast-forward over local changes or from a commit that is not behind. -/
def checkFastForward (headSha remoteSha : Text) : Attempt Unit :=
  (gitText "status" .status fun repository => some repository.changes).andThen fun changes =>
  if changes ≠ [] then
    .raise (.gitSyncError "local tracked changes present; fast-forward skipped" .blocked)
  else
    (gitOk .behind (History.isAncestor headSha remoteSha)).andThen fun behind =>
    if behind then .done ()
    else
      (gitOk .ahead (History.isAncestor remoteSha headSha)).andThen fun ahead =>
      .raise (.gitSyncError
        ((if ahead then ("local commits ahead of remote" : Text)
          else "local branch diverged from remote") ++ "; fast-forward skipped") .blocked)

/-- The merge and what follows it. -/
def moveHead (remoteSha : Text) : Attempt Bool :=
  (gitChange "merge" .merge (mergeEffect remoteSha)).andThen fun _ =>
  (gitText "rev-parse" .mergedSha fun repository => some repository.head).andThen fun merged =>
  (Attempt.modify .count fun world =>
    { world with headSha := some merged, generation := world.generation + 1 }).andThen fun _ =>
  .done true

def wrongBranchError (currentBranch : Text) : SyncError :=
  .gitSyncError ("checked-out branch " ++ Messages.repr currentBranch ++
    " differs from configured " ++ Messages.repr (config.branch.getD []) ++
    "; not switching branches") .blocked

def remoteRef (remoteBranch : Text) : Text :=
  "refs/remotes/" ++ config.remote ++ "/" ++ remoteBranch

/-- The part of `_sync_once` from the fetch to the two commits. -/
def fetchBranch (remoteBranch : Text) : Attempt (Text × Text) :=
  (Attempt.modify .note fun world => { world with fetchCount := world.fetchCount + 1 }).andThen
    fun _ =>
  (gitChange "fetch" .fetch (fetchEffect remoteBranch (remoteRef config remoteBranch))).andThen
    fun _ =>
  (gitText "rev-parse" .remoteSha fun repository =>
    repository.trackingRef (remoteRef config remoteBranch)).andThen fun remoteSha =>
  (gitText "rev-parse" .headSha fun repository => some repository.head).andThen fun headSha =>
  (Attempt.modify .note fun world =>
    { world with remoteSha := some remoteSha, headSha := some headSha }).andThen fun _ =>
  .done (headSha, remoteSha)

/-- The part of `_sync_once` that finds the local and the fetched commit. -/
def fetchCommits : Attempt (Text × Text) :=
  resolveRepoRoot.andThen fun _ =>
  (gitText "symbolic-ref" .currentBranch Repository.branch).andThen fun currentBranch =>
  if config.branch.any (currentBranch ≠ ·) then .raise (wrongBranchError config currentBranch)
  else
    (Attempt.modify .note fun world => { world with branch := some currentBranch }).andThen fun _ =>
    (upstreamBranch currentBranch).andThen (fetchBranch config)

def syncOnce : Attempt Bool :=
  (fetchCommits config).andThen fun commits =>
  if commits.1 = commits.2 then .done false
  else (checkFastForward commits.1 commits.2).andThen fun _ => moveHead commits.2

end SyncOnce

/-! ## What attempts leave alone -/

section Keeping

variable {α β : Type}

/-- The attempt moves neither HEAD nor the generation and leaves the tracked files alone. -/
structure Kept (before after : World) : Prop where
  head : after.repository.head = before.repository.head
  changes : after.repository.changes = before.repository.changes
  generation : after.generation = before.generation

theorem Kept.refl (world : World) : Kept world world := ⟨rfl, rfl, rfl⟩

theorem Kept.trans {first second third : World} (left : Kept first second)
    (right : Kept second third) : Kept first third :=
  ⟨right.head.trans left.head, right.changes.trans left.changes,
    right.generation.trans left.generation⟩

def Call.late : Call → Bool
  | .merge | .mergedSha | .count => true
  | _ => false

/-- From a HEAD on, no step of the attempt is late, each keeps the world, and a value that it ends
with satisfies the condition. -/
def Attempt.Keeps (post : α → Text → Prop) : Attempt α → Text → Prop
  | .ends result, head => ∀ value, result = .ok value → post value head
  | .step call effect next, head =>
      call.late = false ∧ ∀ outcome world, world.repository.head = head →
        Kept world (effect outcome world) ∧ (next outcome world).Keeps post head

theorem Attempt.Keeps.run {attempt : Attempt α} {post : α → Text → Prop} {world : World}
    (keeps : attempt.Keeps post world.repository.head) (outcomes : Call → Outcome) :
    Kept world (attempt.run outcomes world).2 := by
  induction attempt generalizing world with
  | ends result => exact .refl world
  | step call effect next inductionHypothesis =>
      obtain ⟨kept, rest⟩ := keeps.2 (outcomes call) world rfl
      exact kept.trans (inductionHypothesis _ _ (kept.head.symm ▸ rest))

variable {outcomes : Call → Outcome} {world after : World} {head : Text}

theorem Attempt.run_andThen (first : Attempt α) (next : α → Attempt β) :
    (first.andThen next).run outcomes world =
      match first.run outcomes world with
      | (.ok value, after) => (next value).run outcomes after
      | (.error error, after) => (.error error, after) := by
  induction first generalizing world with
  | ends result => cases result <;> rfl
  | step call effect rest inductionHypothesis => exact inductionHypothesis _ _

theorem Attempt.andThen_ok {first : Attempt α} {next : α → Attempt β} {result : β} :
    (first.andThen next).run outcomes world = (.ok result, after) ↔
      ∃ value middle, first.run outcomes world = (.ok value, middle) ∧
        (next value).run outcomes middle = (.ok result, after) := by
  rw [Attempt.run_andThen]
  rcases first.run outcomes world with ⟨error | value, middle⟩
  · simp
  · simp

theorem Attempt.Keeps.andThen {first : Attempt α} {next : α → Attempt β}
    {middle : α → Text → Prop} {post : β → Text → Prop} (keeps : first.Keeps middle head)
    (nextKeeps : ∀ value, middle value head → (next value).Keeps post head) :
    (first.andThen next).Keeps post head := by
  induction first with
  | ends result =>
      cases result with
      | ok value => exact nextKeeps value (keeps value rfl)
      | error error => exact fun value impossible => by cases impossible
  | step call effect rest inductionHypothesis =>
      refine ⟨keeps.1, fun outcome world atHead => ?_⟩
      obtain ⟨kept, restKeeps⟩ := keeps.2 outcome world atHead
      exact ⟨kept, inductionHypothesis _ _ restKeeps⟩

theorem keeps_done {post : α → Text → Prop} {value : α} (holds : post value head) :
    (Attempt.done value).Keeps post head :=
  fun _ same => Except.ok.inj same ▸ holds

theorem keeps_raise {post : α → Text → Prop} (error : SyncError) :
    (Attempt.raise error).Keeps post head :=
  fun _ impossible => by cases impossible

theorem keeps_modify {call : Call} {change : World → World} (early : call.late = false)
    (kept : ∀ world, Kept world (change world)) :
    (Attempt.modify call change).Keeps (fun _ _ => True) head :=
  ⟨early, fun _ world _ => ⟨kept world, keeps_done trivial⟩⟩

variable {name : Text} {call : Call}

/-- A reading command; what it reads at HEAD satisfies the condition. -/
theorem keeps_gitText {output : Repository → Option α} (post : α → Text → Prop)
    (early : call.late = false)
    (holds : ∀ (repository : Repository) value, repository.head = head →
      output repository = some value → post value head) :
    (gitText name call output).Keeps post head := by
  refine ⟨early, fun outcome world atHead => ⟨.refl world, ?_⟩⟩
  dsimp only
  split
  next text read => exact keeps_done (holds _ _ atHead read)
  next => exact keeps_raise _
  next => exact keeps_raise _
  next => exact keeps_raise _

theorem keeps_gitOk {answer : Bool} (early : call.late = false) :
    (gitOk call answer).Keeps (fun said _ => said = true → answer = true) head := by
  refine ⟨early, fun outcome world _ => ⟨.refl world, ?_⟩⟩
  cases outcome with
  | succeeds => exact keeps_done id
  | exits detail => exact keeps_done (by simp)
  | timesOut effective => exact keeps_raise _

theorem keeps_resolveRepoRoot : resolveRepoRoot.Keeps (fun _ _ => True) head := by
  refine ⟨rfl, fun outcome world _ => ⟨?_, ?_⟩⟩
  · dsimp only
    split
    · exact ⟨rfl, rfl, rfl⟩
    · exact .refl world
  · dsimp only
    split
    · exact keeps_done trivial
    · exact keeps_raise _

theorem keeps_upstreamBranch (currentBranch : Text) :
    (upstreamBranch currentBranch).Keeps (fun _ _ => True) head := by
  refine ⟨rfl, fun outcome world _ => ⟨.refl world, ?_⟩⟩
  cases outcome with
  | succeeds => exact keeps_done trivial
  | exits detail => exact keeps_done trivial
  | timesOut effective => exact keeps_raise _

theorem kept_changed {effect : Repository → Option Repository}
    (keeps : ∀ changed, effect world.repository = some changed →
      changed.head = world.repository.head ∧ changed.changes = world.repository.changes)
    (outcome : Outcome) : Kept world (world.changed effect outcome) := by
  unfold World.changed
  split
  next changed found => exact ⟨(keeps changed found).1, (keeps changed found).2, rfl⟩
  next changed found => exact ⟨(keeps changed found).1, (keeps changed found).2, rfl⟩
  next => exact .refl world

theorem keeps_fetch (remoteBranch ref : Text) :
    (gitChange "fetch" .fetch (fetchEffect remoteBranch ref)).Keeps (fun _ _ => True) head := by
  refine ⟨rfl, fun outcome world _ => ⟨kept_changed ?_ outcome, ?_⟩⟩
  · intro changed fetched
    obtain ⟨_, _, rfl⟩ := Option.map_eq_some_iff.mp fetched
    exact ⟨rfl, rfl⟩
  · dsimp only
    split
    next => exact keeps_done trivial
    next => exact keeps_raise _
    next => exact keeps_raise _
    next => exact keeps_raise _

variable {config : GitSyncConfig}

theorem keeps_fetchBranch (remoteBranch : Text) :
    (fetchBranch config remoteBranch).Keeps (fun commits head => commits.1 = head) head := by
  refine Attempt.Keeps.andThen (keeps_modify rfl ?_) fun _ _ => ?_
  · exact fun world => ⟨rfl, rfl, rfl⟩
  apply (keeps_fetch _ _).andThen
  intro _ _
  apply (keeps_gitText (fun _ _ => True) rfl fun _ _ _ _ => trivial).andThen
  intro remoteSha _
  have readsHead : ∀ (repository : Repository) value, repository.head = head →
      some repository.head = some value → value = head :=
    fun repository value atHead read => (Option.some.inj read).symm.trans atHead
  apply (keeps_gitText (fun headSha head => headSha = head) rfl readsHead).andThen
  intro headSha same
  refine Attempt.Keeps.andThen (keeps_modify rfl ?_) fun _ _ => keeps_done same
  exact fun world => ⟨rfl, rfl, rfl⟩

variable [Messages]

theorem keeps_fetchCommits :
    (fetchCommits config).Keeps (fun commits head => commits.1 = head) head := by
  apply keeps_resolveRepoRoot.andThen
  intro _ _
  apply (keeps_gitText (fun _ _ => True) rfl fun _ _ _ _ => trivial).andThen
  intro currentBranch _
  split
  · exact keeps_raise _
  refine Attempt.Keeps.andThen (keeps_modify rfl ?_) fun _ _ => ?_
  · exact fun world => ⟨rfl, rfl, rfl⟩
  exact (keeps_upstreamBranch _).andThen fun remoteBranch _ => keeps_fetchBranch remoteBranch

omit [Messages] in
/-- The check passes only a commit that is behind. -/
theorem keeps_checkFastForward [History] (headSha remoteSha : Text) :
    (checkFastForward headSha remoteSha).Keeps
      (fun _ _ => History.isAncestor headSha remoteSha = true) head := by
  apply (keeps_gitText (fun _ _ => True) rfl fun _ _ _ _ => trivial).andThen
  intro changes _
  split
  · exact keeps_raise _
  apply (keeps_gitOk rfl).andThen
  intro behind known
  split
  next yes => exact keeps_done (known yes)
  apply (keeps_gitOk rfl).andThen
  intro ahead _
  exact keeps_raise _

end Keeping

/-! ## When an attempt reaches the merge -/

section Reaching

variable [History] [Messages] (config : GitSyncConfig) (outcomes : Call → Outcome)

def trackedBranch (repository : Repository) (currentBranch : Text) : Text :=
  let value := (repository.mergeRef currentBranch).getD []
  let headsPrefix : Text := "refs/heads/"
  if outcomes .upstreamBranch = .succeeds ∧ Text.startsWith value headsPrefix then
    value.drop headsPrefix.length
  else currentBranch

omit [History] [Messages] in
/-- The commands up to the two commits succeed, and the fetched commit is the given one. -/
def Fetches (world : World) (remoteSha : Text) : Prop :=
  (world.repoRoot = true ∨ outcomes .topLevel = .succeeds) ∧
    outcomes .currentBranch = .succeeds ∧ outcomes .fetch = .succeeds ∧
    outcomes .remoteSha = .succeeds ∧ outcomes .headSha = .succeeds ∧
    (∀ effective, outcomes .upstreamBranch ≠ .timesOut effective) ∧
    ∃ currentBranch, world.repository.branch = some currentBranch ∧
      (∀ branch, config.branch = some branch → currentBranch = branch) ∧
      world.repository.remoteBranch (trackedBranch outcomes world.repository currentBranch) =
        some remoteSha

/-- HEAD is clean and behind the fetched commit. -/
def ReachesMerge (world : World) (remoteSha : Text) : Prop :=
  Fetches config outcomes world remoteSha ∧ world.repository.head ≠ remoteSha ∧
    outcomes .status = .succeeds ∧ world.repository.changes = [] ∧
    outcomes .behind = .succeeds ∧ History.isAncestor world.repository.head remoteSha = true

variable {config outcomes} {world after : World}

omit [History] [Messages] in
theorem gitText_ok {α : Type} {name : Text} {call : Call} {output : Repository → Option α}
    {value : α} :
    (gitText name call output).run outcomes world = (.ok value, after) ↔
      outcomes call = .succeeds ∧ output world.repository = some value ∧ after = world := by
  simp only [gitText, Attempt.run]
  split <;> simp_all [Attempt.run, Attempt.done, Attempt.raise, eq_comm]

omit [History] [Messages] in
theorem gitChange_ok {name : Text} {call : Call} {effect : Repository → Option Repository} :
    (gitChange name call effect).run outcomes world = (.ok (), after) ↔
      outcomes call = .succeeds ∧ ∃ changed, effect world.repository = some changed ∧
        after = { world with repository := changed } := by
  simp only [gitChange, Attempt.run, World.changed]
  rcases outcomes call with _ | detail | effective <;>
    rcases effect world.repository with _ | changed
  all_goals simp [Attempt.run, Attempt.done, Attempt.raise, eq_comm]

omit [History] [Messages] in
theorem modify_ok {call : Call} {change : World → World} :
    (Attempt.modify call change).run outcomes world = (.ok (), after) ↔ after = change world := by
  simp [Attempt.modify, Attempt.run, Attempt.done, eq_comm]

omit [History] [Messages] in
theorem done_ok {α : Type} {value result : α} :
    (Attempt.done value).run outcomes world = (.ok result, after) ↔
      value = result ∧ after = world := by
  simp [Attempt.done, Attempt.run, eq_comm]

omit [History] [Messages] in
theorem resolveRepoRoot_ok :
    resolveRepoRoot.run outcomes world = (.ok (), after) ↔
      (world.repoRoot = true ∨ outcomes .topLevel = .succeeds) ∧
        after = { world with repoRoot := true } := by
  simp only [resolveRepoRoot, Attempt.run]
  by_cases known : world.repoRoot = true
  · have same : { world with repoRoot := true } = world := by rw [← known]
    simp [known, same, Attempt.run, Attempt.done, eq_comm]
  · cases outcomes .topLevel <;> simp [known, Attempt.run, Attempt.done, Attempt.raise, eq_comm]

omit [History] [Messages] in
theorem upstreamBranch_ok {currentBranch value : Text} :
    (upstreamBranch currentBranch).run outcomes world = (.ok value, after) ↔
      (∀ effective, outcomes .upstreamBranch ≠ .timesOut effective) ∧
        value = trackedBranch outcomes world.repository currentBranch ∧ after = world := by
  simp only [upstreamBranch, trackedBranch, Attempt.run]
  cases outcomes .upstreamBranch with
  | succeeds =>
      simp only [Attempt.run, Attempt.done, Prod.mk.injEq, Except.ok.injEq, true_and,
        reduceCtorEq, not_false_eq_true, implies_true, ne_eq]
      exact and_congr eq_comm eq_comm
  | exits detail =>
      simp only [Attempt.run, Attempt.done, Prod.mk.injEq, Except.ok.injEq, false_and, if_false,
        reduceCtorEq, not_false_eq_true, implies_true, ne_eq, true_and]
      exact and_congr eq_comm eq_comm
  | timesOut effective => simp [Attempt.run, Attempt.raise]

omit [History] [Messages] in
theorem fetchBranch_ok {remoteBranch headSha remoteSha : Text}
    (ends : (fetchBranch config remoteBranch).run outcomes world =
      (.ok (headSha, remoteSha), after)) :
    (outcomes .fetch = .succeeds ∧ outcomes .remoteSha = .succeeds ∧
      outcomes .headSha = .succeeds) ∧
      world.repository.remoteBranch remoteBranch = some remoteSha ∧
      headSha = world.repository.head ∧ after.remoteSha = some remoteSha := by
  obtain ⟨_, _, counted, ends⟩ := Attempt.andThen_ok.mp ends
  obtain rfl := modify_ok.mp counted
  obtain ⟨_, _, fetch, ends⟩ := Attempt.andThen_ok.mp ends
  obtain ⟨fetchRuns, _, fetched, rfl⟩ := gitChange_ok.mp fetch
  obtain ⟨commit, remoteCommit, rfl⟩ := Option.map_eq_some_iff.mp fetched
  obtain ⟨remote, _, remoteRead, ends⟩ := Attempt.andThen_ok.mp ends
  obtain ⟨remoteRuns, tracked, rfl⟩ := gitText_ok.mp remoteRead
  obtain ⟨head, _, headRead, ends⟩ := Attempt.andThen_ok.mp ends
  obtain ⟨headRuns, atHead, rfl⟩ := gitText_ok.mp headRead
  obtain ⟨_, _, recorded, ends⟩ := Attempt.andThen_ok.mp ends
  obtain rfl := modify_ok.mp recorded
  obtain ⟨same, rfl⟩ := done_ok.mp ends
  obtain ⟨rfl, rfl⟩ := Prod.mk.inj same
  dsimp only at tracked
  rw [Function.update_self] at tracked
  obtain rfl := Option.some.inj tracked
  exact ⟨⟨fetchRuns, remoteRuns, headRuns⟩, remoteCommit, (Option.some.inj atHead).symm, rfl⟩

omit [History] in
/-- What `_sync_once` knows after the fetch. -/
theorem fetchCommits_ok {headSha remoteSha : Text}
    (ends : (fetchCommits config).run outcomes world = (.ok (headSha, remoteSha), after)) :
    Fetches config outcomes world remoteSha ∧ headSha = world.repository.head ∧
      after.remoteSha = some remoteSha := by
  obtain ⟨_, rooted, root, ends⟩ := Attempt.andThen_ok.mp ends
  obtain ⟨known, rfl⟩ := resolveRepoRoot_ok.mp root
  obtain ⟨currentBranch, _, current, ends⟩ := Attempt.andThen_ok.mp ends
  obtain ⟨currentRuns, onBranch, rfl⟩ := gitText_ok.mp current
  by_cases wrong : config.branch.any (currentBranch ≠ ·) = true
  · rw [if_pos wrong] at ends
    cases ends
  rw [if_neg wrong] at ends
  obtain ⟨_, _, noted, ends⟩ := Attempt.andThen_ok.mp ends
  obtain rfl := modify_ok.mp noted
  obtain ⟨remoteBranch, _, upstream, ends⟩ := Attempt.andThen_ok.mp ends
  obtain ⟨inTime, rfl, rfl⟩ := upstreamBranch_ok.mp upstream
  obtain ⟨⟨fetchRuns, remoteRuns, headRuns⟩, remoteCommit, atHead, recorded⟩ := fetchBranch_ok ends
  have branchAgrees : ∀ branch, config.branch = some branch → currentBranch = branch := by
    intro branch configured
    simpa [configured] using wrong
  exact ⟨⟨known, currentRuns, fetchRuns, remoteRuns, headRuns, inTime, currentBranch, onBranch,
    branchAgrees, remoteCommit⟩, atHead, recorded⟩

omit [History] [Messages] in
def World.fetched (config : GitSyncConfig) (remoteBranch remoteSha : Text) (world : World) :
    World :=
  { world with
    repository := { world.repository with
      trackingRef := Function.update world.repository.trackingRef (remoteRef config remoteBranch)
        (some remoteSha) }
    fetchCount := world.fetchCount + 1
    remoteSha := some remoteSha
    headSha := some world.repository.head }

omit [History] [Messages] in
theorem fetchBranch_of_runs {remoteBranch remoteSha : Text}
    (fetchRuns : outcomes .fetch = .succeeds) (remoteRuns : outcomes .remoteSha = .succeeds)
    (headRuns : outcomes .headSha = .succeeds)
    (remoteCommit : world.repository.remoteBranch remoteBranch = some remoteSha) :
    (fetchBranch config remoteBranch).run outcomes world =
      (.ok (world.repository.head, remoteSha), world.fetched config remoteBranch remoteSha) := by
  refine Attempt.andThen_ok.mpr ⟨(), _, modify_ok.mpr rfl, ?_⟩
  refine Attempt.andThen_ok.mpr ⟨(), _, gitChange_ok.mpr
    ⟨fetchRuns, _, Option.map_eq_some_iff.mpr ⟨_, remoteCommit, rfl⟩, rfl⟩, ?_⟩
  refine Attempt.andThen_ok.mpr
    ⟨remoteSha, _, gitText_ok.mpr ⟨remoteRuns, Function.update_self _ _ _, rfl⟩, ?_⟩
  refine Attempt.andThen_ok.mpr ⟨_, _, gitText_ok.mpr ⟨headRuns, rfl, rfl⟩, ?_⟩
  exact Attempt.andThen_ok.mpr ⟨(), _, modify_ok.mpr rfl, rfl⟩

omit [History] in
theorem fetchCommits_of_fetches {remoteSha : Text}
    (fetches : Fetches config outcomes world remoteSha) :
    ∃ after, (fetchCommits config).run outcomes world =
      (.ok (world.repository.head, remoteSha), after) := by
  obtain ⟨known, currentRuns, fetchRuns, remoteRuns, headRuns, inTime, currentBranch, onBranch,
    branchAgrees, remoteCommit⟩ := fetches
  have sameBranch : ¬ config.branch.any (currentBranch ≠ ·) = true := by
    cases configured : config.branch with
    | none => simp
    | some branch => simp [branchAgrees branch configured]
  obtain ⟨after, ends⟩ : ∃ after, (fetchBranch config
      (trackedBranch outcomes world.repository currentBranch)).run outcomes
      { world with repoRoot := true, branch := some currentBranch } =
        (.ok (world.repository.head, remoteSha), after) :=
    ⟨_, fetchBranch_of_runs fetchRuns remoteRuns headRuns remoteCommit⟩
  refine ⟨after, Attempt.andThen_ok.mpr ⟨(), _, resolveRepoRoot_ok.mpr ⟨known, rfl⟩, ?_⟩⟩
  refine Attempt.andThen_ok.mpr ⟨currentBranch, _, gitText_ok.mpr ⟨currentRuns, onBranch, rfl⟩, ?_⟩
  rw [if_neg sameBranch]
  refine Attempt.andThen_ok.mpr ⟨(), _, modify_ok.mpr rfl, ?_⟩
  exact Attempt.andThen_ok.mpr ⟨_, _, upstreamBranch_ok.mpr ⟨inTime, rfl, rfl⟩, ends⟩

omit [Messages] in
theorem checkFastForward_ok {headSha remoteSha : Text} :
    (checkFastForward headSha remoteSha).run outcomes world = (.ok (), after) ↔
      (outcomes .status = .succeeds ∧ world.repository.changes = [] ∧
        outcomes .behind = .succeeds ∧ History.isAncestor headSha remoteSha = true) ∧
        after = world := by
  have behindRuns : ∀ {value after}, (gitOk .behind (History.isAncestor headSha remoteSha)).run
      outcomes world = (.ok value, after) ↔ (outcomes .behind = .succeeds ∧
        value = History.isAncestor headSha remoteSha ∨
        (∃ detail, outcomes .behind = .exits detail) ∧ value = false) ∧ after = world := by
    intro value after
    simp only [gitOk, Attempt.run]
    cases outcomes .behind <;> simp [Attempt.run, Attempt.done, Attempt.raise, eq_comm]
  constructor
  · intro ends
    obtain ⟨changes, checked, status, ends⟩ := Attempt.andThen_ok.mp ends
    obtain ⟨statusRuns, read, rfl⟩ := gitText_ok.mp status
    obtain rfl := Option.some.inj read
    by_cases clean : checked.repository.changes = []
    · rw [if_neg (not_not.mpr clean)] at ends
      obtain ⟨behind, _, asked, ends⟩ := Attempt.andThen_ok.mp ends
      obtain ⟨answer, rfl⟩ := behindRuns.mp asked
      cases behind with
      | false =>
          obtain ⟨_, _, _, ends⟩ := Attempt.andThen_ok.mp ends
          cases ends
      | true =>
          rw [if_pos rfl] at ends
          obtain ⟨runs, isBehind⟩ := answer.resolve_right (by simp)
          exact ⟨⟨statusRuns, clean, runs, isBehind.symm⟩, (done_ok.mp ends).2⟩
    · rw [if_pos clean] at ends
      cases ends
  · rintro ⟨⟨statusRuns, clean, runs, isBehind⟩, rfl⟩
    refine Attempt.andThen_ok.mpr ⟨_, _, gitText_ok.mpr ⟨statusRuns, rfl, rfl⟩, ?_⟩
    rw [if_neg (not_not.mpr clean)]
    refine Attempt.andThen_ok.mpr
      ⟨true, _, behindRuns.mpr ⟨.inl ⟨runs, isBehind.symm⟩, rfl⟩, ?_⟩
    rfl

end Reaching

/-! ## Fast-forward atomicity -/

section Atomicity

variable [History] [Messages] (config : GitSyncConfig) (outcomes : Call → Outcome)

omit [Messages] in
/-- A value of true says that HEAD moved to the fetched commit, anything else that nothing moved. -/
structure Atomic (before : World) (result : Except SyncError Bool) (after : World) : Prop where
  moved : result = .ok true →
    after.remoteSha = some after.repository.head ∧
      History.isAncestor before.repository.head after.repository.head = true ∧
      after.generation = before.generation + 1
  unmoved : result ≠ .ok true →
    after.repository.head = before.repository.head ∧ after.generation = before.generation

/-- HEAD moves, but the merge is killed or the command after it does not succeed. -/
def Interrupted : Prop :=
  outcomes .merge = .timesOut true ∨
    outcomes .merge = .succeeds ∧ outcomes .mergedSha ≠ .succeeds

variable {config outcomes} {world : World}

/-- Without a merge nothing moves. -/
theorem syncOnce_unreached
    (unreached : ∀ remoteSha, ¬ ReachesMerge config outcomes world remoteSha) :
    ((syncOnce config).run outcomes world).1 ≠ .ok true ∧
      Kept world ((syncOnce config).run outcomes world).2 := by
  have kept := (@keeps_fetchCommits world.repository.head config _).run outcomes
  rw [syncOnce, Attempt.run_andThen]
  rcases fetched : (fetchCommits config).run outcomes world with
    ⟨error | ⟨headSha, remoteSha⟩, middle⟩
  · rw [fetched] at kept
    exact ⟨by simp, kept⟩
  · rw [fetched] at kept
    obtain ⟨fetches, rfl, -⟩ := fetchCommits_ok fetched
    dsimp only
    by_cases same : world.repository.head = remoteSha
    · rw [if_pos same]
      exact ⟨by simp [Attempt.done, Attempt.run], kept⟩
    · rw [if_neg same, Attempt.run_andThen]
      have checkKept := (@keeps_checkFastForward middle.repository.head _ world.repository.head
        remoteSha).run outcomes
      rcases checked : (checkFastForward world.repository.head remoteSha).run outcomes middle with
        ⟨error | _, after⟩
      · rw [checked] at checkKept
        exact ⟨by simp, kept.trans checkKept⟩
      · obtain ⟨⟨status, clean, behind, ancestor⟩, -⟩ := checkFastForward_ok.mp checked
        exact absurd ⟨fetches, same, status, kept.changes ▸ clean, behind, ancestor⟩
          (unreached remoteSha)

/-- With the merge reached, it and the command after it decide. -/
theorem syncOnce_reached {remoteSha : Text}
    (reaches : ReachesMerge config outcomes world remoteSha) :
    ∃ middle, Kept world middle ∧ middle.remoteSha = some remoteSha ∧
      (syncOnce config).run outcomes world = (moveHead remoteSha).run outcomes middle := by
  obtain ⟨fetches, different, status, clean, behind, ancestor⟩ := reaches
  obtain ⟨middle, fetched⟩ := fetchCommits_of_fetches fetches
  have kept := (@keeps_fetchCommits world.repository.head config _).run outcomes
  rw [fetched] at kept
  have checked : (checkFastForward world.repository.head remoteSha).run outcomes middle =
      (.ok (), middle) :=
    checkFastForward_ok.mpr ⟨⟨status, kept.changes.trans clean, behind, ancestor⟩, rfl⟩
  refine ⟨middle, kept, (fetchCommits_ok fetched).2.2, ?_⟩
  simp [syncOnce, Attempt.run_andThen, fetched, different, checked]

omit [Messages] in
/-- The merge moves HEAD unless it fails; the count follows only if the next command succeeds. -/
theorem moveHead_cases {remoteSha : Text}
    (ancestor : History.isAncestor world.repository.head remoteSha = true) :
    (outcomes .merge = .succeeds ∧ outcomes .mergedSha = .succeeds ∧
        ((moveHead remoteSha).run outcomes world).1 = .ok true ∧
        ((moveHead remoteSha).run outcomes world).2.repository.head = remoteSha ∧
        ((moveHead remoteSha).run outcomes world).2.remoteSha = world.remoteSha ∧
        ((moveHead remoteSha).run outcomes world).2.generation = world.generation + 1) ∨
      (Interrupted outcomes ∧ ((moveHead remoteSha).run outcomes world).1 ≠ .ok true ∧
        ((moveHead remoteSha).run outcomes world).2.repository.head = remoteSha ∧
        ((moveHead remoteSha).run outcomes world).2.generation = world.generation) ∨
      (¬ Interrupted outcomes ∧ ((moveHead remoteSha).run outcomes world).1 ≠ .ok true ∧
        ((moveHead remoteSha).run outcomes world).2 = world) := by
  have effect : mergeEffect remoteSha world.repository =
      some { world.repository with head := remoteSha } := if_pos ancestor
  cases merge : outcomes .merge with
  | succeeds =>
      cases merged : outcomes .mergedSha with
      | succeeds =>
          refine .inl ⟨rfl, rfl, ?_⟩
          simp [moveHead, Attempt.run_andThen, gitChange, gitText, merge, merged, effect,
            Attempt.modify, Attempt.done, Attempt.run, World.changed]
      | exits detail =>
          refine .inr (.inl ⟨.inr ⟨merge, by simp [merged]⟩, ?_⟩)
          simp [moveHead, Attempt.run_andThen, gitChange, gitText, merge, merged, effect,
            Attempt.run, Attempt.raise, Attempt.done, World.changed]
      | timesOut effective =>
          refine .inr (.inl ⟨.inr ⟨merge, by simp [merged]⟩, ?_⟩)
          simp [moveHead, Attempt.run_andThen, gitChange, gitText, merge, merged, effect,
            Attempt.run, Attempt.raise, Attempt.done, World.changed]
  | exits detail =>
      refine .inr (.inr ⟨by simp [Interrupted, merge], ?_⟩)
      simp [moveHead, Attempt.run_andThen, gitChange, merge, effect, Attempt.run, Attempt.raise,
            World.changed]
  | timesOut effective =>
      cases effective with
      | true =>
          refine .inr (.inl ⟨.inl merge, ?_⟩)
          simp [moveHead, Attempt.run_andThen, gitChange, merge, effect, Attempt.run, Attempt.raise,
            World.changed]
      | false =>
          refine .inr (.inr ⟨by simp [Interrupted, merge], ?_⟩)
          simp [moveHead, Attempt.run_andThen, gitChange, merge, effect, Attempt.run, Attempt.raise,
            World.changed]

variable (config outcomes world) in
theorem syncOnce_atomic_iff :
    Atomic world ((syncOnce config).run outcomes world).1 ((syncOnce config).run outcomes world).2 ↔
      ¬ ((∃ remoteSha, ReachesMerge config outcomes world remoteSha) ∧ Interrupted outcomes) := by
  by_cases reached : ∃ remoteSha, ReachesMerge config outcomes world remoteSha
  · obtain ⟨remoteSha, reaches⟩ := reached
    obtain ⟨middle, kept, recorded, ends⟩ := syncOnce_reached reaches
    have ancestor := reaches.2.2.2.2.2
    have moves : remoteSha ≠ world.repository.head := reaches.2.1.symm
    rw [ends]
    rcases @moveHead_cases _ outcomes middle remoteSha (kept.head ▸ ancestor) with
      ⟨merge, merged, result, head, remote, counted⟩ | ⟨interrupted, result, head, counted⟩ |
        ⟨whole, result, same⟩
    · have whole : ¬ Interrupted outcomes := by simp [Interrupted, merge, merged]
      refine iff_of_true ⟨fun _ => ?_, fun other => absurd result other⟩ (fun both => whole both.2)
      rw [head, remote, counted, kept.generation]
      exact ⟨recorded, ancestor, rfl⟩
    · refine iff_of_false (fun atomic => ?_) fun whole =>
        whole ⟨⟨remoteSha, reaches⟩, interrupted⟩
      exact moves (head.symm.trans (atomic.unmoved result).1)
    · refine iff_of_true ⟨fun success => absurd success result, fun _ => ?_⟩
        (fun both => whole both.2)
      rw [same]
      exact ⟨kept.head, kept.generation⟩
  · have unreached := syncOnce_unreached (not_exists.mp reached)
    refine iff_of_true ⟨fun success => absurd success unreached.1, fun _ => ?_⟩
      (fun both => reached both.1)
    exact ⟨unreached.2.head, unreached.2.generation⟩

end Atomicity

/-! ## What the steps of an attempt count -/

section Counting

variable {α : Type}

/-- The moves of HEAD that the attempt has made and not counted. -/
def Attempt.uncounted : Attempt α → Nat
  | .step .mergedSha _ _ => 1
  | .step .count _ _ => 1
  | _ => 0

/-- The next step is no merge that is killed after it moved HEAD, and no failure of the command
after the merge. -/
def Attempt.whole : Attempt α → Outcome → Bool
  | .step .merge _ _, outcome => outcome ≠ .timesOut true
  | .step .mergedSha _ _, outcome => outcome = .succeeds
  | _, _ => true

def Attempt.ended : Attempt α → Bool
  | .ends _ => true
  | .step .. => false

def movesHead (before after : World) : Nat :=
  if after.repository.head = before.repository.head then 0 else 1

def Attempt.Counts : Attempt α → Text → Prop
  | .ends _, _ => True
  | .step call effect next, head => ∀ outcome world, world.repository.head = head →
      (Attempt.step call effect next).whole outcome = true →
      (effect outcome world).generation + (next outcome world).uncounted =
        world.generation + (Attempt.step call effect next).uncounted +
          movesHead world (effect outcome world) ∧
      (next outcome world).Counts (effect outcome world).repository.head

theorem Kept.movesHead {before after : World} (kept : Kept before after) :
    movesHead before after = 0 := if_pos kept.head

variable {head : Text}

theorem uncounted_early {call : Call} {effect : Outcome → World → World}
    {next : Outcome → World → Attempt α} (early : call.late = false) :
    (Attempt.step call effect next).uncounted = 0 := by
  cases call <;> first | rfl | cases early

theorem Attempt.Keeps.uncounted_andThen {β : Type} {first : Attempt α} {next : α → Attempt β}
    {post : α → Text → Prop} (keeps : first.Keeps post head)
    (nextCounted : ∀ value, post value head → (next value).uncounted = 0) :
    (first.andThen next).uncounted = 0 := by
  cases first with
  | ends result =>
      cases result with
      | ok value => exact nextCounted value (keeps value rfl)
      | error error => rfl
  | step call effect rest => exact uncounted_early keeps.1

theorem Attempt.Keeps.counts {β : Type} {first : Attempt α} {next : α → Attempt β}
    {post : α → Text → Prop} (keeps : first.Keeps post head)
    (nextCounted : ∀ value, post value head → (next value).uncounted = 0)
    (nextCounts : ∀ value, post value head → (next value).Counts head) :
    (first.andThen next).Counts head := by
  induction first with
  | ends result =>
      cases result with
      | ok value => exact nextCounts value (keeps value rfl)
      | error error => trivial
  | step call effect rest inductionHypothesis =>
      intro outcome world atHead _
      obtain ⟨kept, restKeeps⟩ := keeps.2 outcome world atHead
      rw [uncounted_early keeps.1, restKeeps.uncounted_andThen nextCounted, kept.generation,
        kept.movesHead, kept.head, atHead]
      exact ⟨rfl, inductionHypothesis _ _ restKeeps⟩

/-- After the merge the generation takes in the move. -/
theorem counts_moved (head : Text) :
    ((gitText "rev-parse" .mergedSha fun repository => some repository.head).andThen fun merged =>
      (Attempt.modify .count fun world =>
        { world with headSha := some merged, generation := world.generation + 1 }).andThen fun _ =>
      Attempt.done true).Counts head := by
  intro outcome world _ whole
  obtain rfl : outcome = .succeeds := by simpa [Attempt.andThen, Attempt.whole] using whole
  refine ⟨by simp [Attempt.uncounted, Attempt.andThen, Attempt.done, Attempt.modify, movesHead], ?_⟩
  intro outcome after _ _
  exact ⟨by simp [Attempt.uncounted, Attempt.andThen, Attempt.done, movesHead], trivial⟩

variable [History]

/-- From a HEAD behind the target the merge moves it once. -/
theorem counts_moveHead {remoteSha : Text} (different : head ≠ remoteSha)
    (behind : History.isAncestor head remoteSha = true) : (moveHead remoteSha).Counts head := by
  intro outcome world atHead whole
  have effect : mergeEffect remoteSha world.repository =
      some { world.repository with head := remoteSha } := if_pos (atHead ▸ behind)
  have moves : remoteSha ≠ world.repository.head := fun same => different (same ▸ atHead.symm)
  cases outcome with
  | succeeds =>
      simp only [World.changed, effect]
      refine ⟨?_, counts_moved remoteSha⟩
      simp [Attempt.uncounted, Attempt.andThen, Attempt.done, gitText, movesHead, moves]
  | exits detail =>
      simp only [World.changed]
      exact ⟨by simp [Attempt.uncounted, Attempt.andThen, Attempt.raise, movesHead], trivial⟩
  | timesOut effective =>
      cases effective with
      | true => simp [Attempt.whole] at whole
      | false =>
          simp only [World.changed]
          exact ⟨by simp [Attempt.uncounted, Attempt.andThen, Attempt.raise, movesHead], trivial⟩

theorem counts_syncOnce [Messages] (config : GitSyncConfig) (head : Text) :
    (syncOnce config).Counts head := by
  refine keeps_fetchCommits.counts ?_ ?_
  · intro commits _
    split <;> rfl
  · intro commits atHead
    split
    · trivial
    next different =>
      refine (keeps_checkFastForward _ _).counts (fun _ _ => rfl) fun _ behind => ?_
      exact counts_moveHead (atHead ▸ different) (atHead ▸ behind)

end Counting

/-! ## Snapshots -/

section Snapshots

variable [History] [Messages] (config : GitSyncConfig)

/-- What `_index_snapshot` was asked and did. -/
structure Rebuild where
  /-- A sync has moved HEAD since the last snapshot. -/
  moved : Bool
  refresh : Bool
  deriving DecidableEq

/-- The service with its sync thread and the snapshot under its lock. -/
structure Service where
  world : World
  attempt : Attempt Bool := .done false
  /-- The generation that a snapshot under way has read, and the moves of HEAD by then. -/
  reading : Option (Nat × Nat) := none
  generationSeen : Nat := 0
  /-- How often syncs have moved HEAD, and how often by the last snapshot. -/
  moves : Nat := 0
  movesSeen : Nat := 0
  rebuilds : List Rebuild := []

inductive ServiceEvent where
  /-- A sync thread starts. -/
  | sync
  /-- The next step of the thread. -/
  | advance (outcome : Outcome)
  /-- Somebody else works on the repository. -/
  | disturb (repository : Repository)
  /-- `_index_snapshot` takes its lock, reads the generation and begins to rebuild. -/
  | snapshot (refresh : Bool)
  /-- The rebuild returns or raises. -/
  | rebuilt (fails : Bool)

def indexSnapshot (service : Service) (refresh : Bool) : Service :=
  let generation := service.world.generation
  let gitMoved := decide (generation ≠ service.generationSeen)
  { service with
    reading := some (generation, service.moves)
    rebuilds :=
      { moved := decide (service.moves ≠ service.movesSeen), refresh := refresh || gitMoved } ::
        service.rebuilds }

def serviceStep (service : Service) : ServiceEvent → Option Service
  | .sync =>
      if service.attempt.ended then some { service with attempt := syncOnce config } else none
  | .advance outcome =>
      match service.attempt with
      | .ends _ => none
      | .step _ effect next =>
          let after := effect outcome service.world
          some { service with
            world := after
            attempt := next outcome service.world
            moves := service.moves + movesHead service.world after }
  | .disturb repository =>
      some { service with world := { service.world with repository := repository } }
  | .snapshot refresh =>
      match service.reading with
      | none => some (indexSnapshot service refresh)
      | some _ => none
  | .rebuilt fails =>
      match service.reading with
      | none => none
      | some (generation, moves) =>
          if fails then some { service with reading := none }
          else
            some { service with
              reading := none
              generationSeen := generation
              movesSeen := moves }

omit [History] [Messages] in
/-- No merge is interrupted, nobody else moves HEAD under a sync thread, and no snapshot begins
between a merge and its count. -/
def uninterrupted (service : Service) : ServiceEvent → Bool
  | .sync => true
  | .advance outcome => service.attempt.whole outcome
  | .disturb repository =>
      service.attempt.ended || repository.head = service.world.repository.head
  | .snapshot _ => service.attempt.uncounted = 0
  | .rebuilt _ => true

omit [History] [Messages] in
/-- The generation counts the moves of HEAD but for one that is about to be counted, and every
snapshot after a move rebuilds. -/
structure Fresh (service : Service) : Prop where
  counted : service.world.generation + service.attempt.uncounted = service.moves
  seen : service.generationSeen = service.movesSeen
  rebuilt : ∀ rebuild ∈ service.rebuilds, rebuild.moved = true → rebuild.refresh = true

omit [History] [Messages] in
/-- What makes `Fresh` last: the attempt counts its moves, a snapshot has read what it saw. -/
structure StaysFresh (service : Service) : Prop where
  fresh : Fresh service
  counts : service.attempt.Counts service.world.repository.head
  read : ∀ generation moves, service.reading = some (generation, moves) → generation = moves

variable {config}

theorem StaysFresh.step {service after : Service} {event : ServiceEvent}
    (stays : StaysFresh service) (whole : uninterrupted service event = true)
    (stepped : serviceStep config service event = some after) : StaysFresh after := by
  obtain ⟨⟨counted, seen, rebuilt⟩, counts, read⟩ := stays
  cases event with
  | sync =>
      cases under : service.attempt with
      | step call effect next => simp [serviceStep, under, Attempt.ended] at stepped
      | ends result =>
          rw [under] at counted
          obtain rfl : { service with attempt := syncOnce config } = after := by
            simpa [serviceStep, under, Attempt.ended] using stepped
          exact ⟨⟨counted, seen, rebuilt⟩, counts_syncOnce config _, read⟩
  | advance outcome =>
      cases under : service.attempt with
      | ends result => simp [serviceStep, under] at stepped
      | step call effect next =>
          rw [under] at counted counts
          obtain ⟨law, later⟩ := counts outcome service.world rfl (under ▸ whole)
          simp only [serviceStep, under, Option.some.injEq] at stepped
          obtain rfl := stepped
          exact ⟨⟨law.trans (by rw [counted]), seen, rebuilt⟩, later, read⟩
  | disturb repository =>
      obtain rfl := Option.some.inj stepped
      refine ⟨⟨counted, seen, rebuilt⟩, ?_, read⟩
      rcases Bool.or_eq_true_iff.mp whole with ended | sameHead
      · cases under : service.attempt with
        | ends result => trivial
        | step call effect next => simp [under, Attempt.ended] at ended
      · exact (of_decide_eq_true sameHead).symm ▸ counts
  | snapshot refresh =>
      cases busy : service.reading with
      | some reading => simp [serviceStep, busy] at stepped
      | none =>
          obtain rfl : indexSnapshot service refresh = after := by
            simpa [serviceStep, busy] using stepped
          have all : service.world.generation = service.moves := by
            have none_ : service.attempt.uncounted = 0 := of_decide_eq_true whole
            rw [← counted, none_, Nat.add_zero]
          have newest : decide (service.moves ≠ service.movesSeen) = true →
              (refresh || decide (service.world.generation ≠ service.generationSeen)) = true := by
            rw [all, seen]
            exact fun moved => Bool.or_eq_true_iff.mpr (.inr moved)
          refine ⟨⟨counted, seen, List.forall_mem_cons.mpr ⟨newest, rebuilt⟩⟩, counts, ?_⟩
          rintro generation moves same
          obtain ⟨rfl, rfl⟩ := Prod.mk.inj (Option.some.inj same)
          exact all
  | rebuilt fails =>
      cases under : service.reading with
      | none => simp [serviceStep, under] at stepped
      | some reading =>
          obtain ⟨generation, moves⟩ := reading
          have same := read generation moves under
          cases fails with
          | true =>
              obtain rfl : { service with reading := none } = after := by
                simpa [serviceStep, under] using stepped
              exact ⟨⟨counted, seen, rebuilt⟩, counts, by simp⟩
          | false =>
              obtain rfl : { service with
                  reading := none, generationSeen := generation, movesSeen := moves } = after := by
                simpa [serviceStep, under] using stepped
              exact ⟨⟨counted, same, rebuilt⟩, counts, by simp⟩

/-- A sync thread whose steps follow each other at once does what the call does. -/
theorem exec_advance (outcomes : Call → Outcome) (service : Service) :
    ∃ events after, exec (serviceStep config) service events = some after ∧
      after.world = (service.attempt.run outcomes service.world).2 ∧
      after.attempt = .ends (service.attempt.run outcomes service.world).1 ∧
      after.rebuilds = service.rebuilds := by
  generalize under : service.attempt = attempt
  induction attempt generalizing service with
  | ends result => exact ⟨[], service, rfl, rfl, under, rfl⟩
  | step call effect next inductionHypothesis =>
      obtain ⟨events, after, ran, world, ended, rebuilds⟩ :=
        let world := effect (outcomes call) service.world
        inductionHypothesis (outcomes call) service.world
          { service with
            world
            attempt := next (outcomes call) service.world
            moves := service.moves + movesHead service.world world }
          rfl
      refine ⟨.advance (outcomes call) :: events, after, ?_, world, ended, rebuilds⟩
      simpa [exec, serviceStep, under] using ran

/-- An attempt is atomic exactly when no merge it reaches is interrupted.  In every interleaving of
the steps of attempts with snapshots where none is, and where no snapshot begins between a merge and
its count, the generation counts the moves of HEAD, and a snapshot after a move rebuilds. -/
theorem syncOnce_atomic (config : GitSyncConfig) (outcomes : Call → Outcome) (world : World) :
    (Atomic world ((syncOnce config).run outcomes world).1
        ((syncOnce config).run outcomes world).2 ↔
      ¬ ((∃ remoteSha, ReachesMerge config outcomes world remoteSha) ∧ Interrupted outcomes)) ∧
    ∀ service, ReachableVia (serviceStep config)
      (fun service event => uninterrupted service event = true)
      { world := { world with generation := 0 } } service → Fresh service := by
  refine ⟨syncOnce_atomic_iff config outcomes world, fun service reached => ?_⟩
  have start : StaysFresh { world := { world with generation := 0 } } :=
    ⟨⟨rfl, rfl, by simp⟩, trivial, by simp⟩
  exact (reached.invariant start fun _ _ _ stays whole stepped => stays.step whole stepped).fresh

end Snapshots

/-! ## Two attempts -/

section Sample

/-- One commit behind another, and plain messages. -/
@[reducible]
def sampleHistory : History where
  isAncestor first second := first = "old" && second = "new" || first = second

@[reducible]
def sampleMessages : Messages where
  repr text := text
  sanitize text := text
  timedOut := "timed out"
  unexpected text := text

attribute [local instance] sampleHistory sampleMessages

def sampleWorld : World where
  repository :=
    { head := "old"
      branch := some "main"
      mergeRef := fun _ => none
      remoteBranch := fun name => if name = "main" then some "new" else none
      trackingRef := fun _ => none
      changes := [] }

/-- Every command succeeds but the one after the merge. -/
def mergedShaFails (call : Call) : Outcome :=
  if call = .mergedSha then .exits "fatal" else .succeeds

/-- A sync that moves HEAD, with a snapshot before the merge that ends after it and one after. -/
def sampleEvents : List ServiceEvent :=
  .sync :: List.replicate 10 (.advance .succeeds) ++ [.snapshot false] ++
    List.replicate 4 (.advance .succeeds) ++ [.rebuilt false, .snapshot false, .rebuilt false]

theorem syncOnce_atomic_sample :
    Atomic sampleWorld ((syncOnce {}).run (fun _ => .succeeds) sampleWorld).1
        ((syncOnce {}).run (fun _ => .succeeds) sampleWorld).2 ∧
      ∃ service, exec (serviceStep {}) { world := sampleWorld } sampleEvents = some service ∧
        service.world.repository.head = "new" ∧ service.moves = 1 ∧
        service.rebuilds = [⟨true, true⟩, ⟨false, false⟩] ∧ Fresh service := by
  obtain ⟨whole, runs⟩ := syncOnce_atomic {} (fun _ => .succeeds) sampleWorld
  refine ⟨whole.mpr fun both => by simp [Interrupted] at both, _, rfl, by decide,
    by decide, by decide, runs _ ?_⟩
  exact reachableVia_of_exec
    (admits_of_checks (fun _ _ => id) (by decide : checks (serviceStep {}) uninterrupted
      { world := sampleWorld } sampleEvents = true)) rfl

/-- HEAD has moved, the attempt raises and the generation stays. -/
theorem mergedShaFails_unatomic :
    ((syncOnce {}).run mergedShaFails sampleWorld).2.repository.head = "new" ∧
      ((syncOnce {}).run mergedShaFails sampleWorld).2.generation = 0 ∧
      ¬ Atomic sampleWorld ((syncOnce {}).run mergedShaFails sampleWorld).1
        ((syncOnce {}).run mergedShaFails sampleWorld).2 := by
  have moved : ((syncOnce {}).run mergedShaFails sampleWorld).2.repository.head = "new" := by
    decide
  have failed : ((syncOnce {}).run mergedShaFails sampleWorld).1 =
      .error (.gitSyncError "git rev-parse failed: fatal" .error) := by
    decide
  refine ⟨moved, by decide, fun atomic => ?_⟩
  have unmoved := (atomic.unmoved (by rw [failed]; simp)).1
  rw [moved] at unmoved
  exact absurd unmoved (by decide)

end Sample

end LlmWikiServe.GitSync
