import Mathlib

/-!
# Breadth-first traversals

Loops that break at a limit, queues that are emptied level by level, and what a breadth-first
search over adjacency lists visits.
-/

namespace LlmWikiServe.Traversal

universe u v w

/-! ## Loops with a break -/

section Break

variable {State : Type u} {Item : Type v}

/-- Process items until a test holds, which follows every item. -/
def foldUntil (stop : State → Bool) (step : State → Item → State) : List Item → State → State
  | [], state => state
  | item :: items, state =>
      if stop (step state item) then step state item
      else foldUntil stop step items (step state item)

@[simp]
theorem foldUntil_never (step : State → Item → State) (items : List Item) (state : State) :
    foldUntil (fun _ => false) step items state = items.foldl step state := by
  induction items generalizing state with
  | nil => rfl
  | cons item items inductionHypothesis => simp [foldUntil, inductionHypothesis]

/-- A loop only matters on the items it is given. -/
theorem foldUntil_congr {stop : State → Bool} {step other : State → Item → State}
    {items : List Item} (same : ∀ item ∈ items, ∀ state, step state item = other state item)
    (state : State) : foldUntil stop step items state = foldUntil stop other items state := by
  induction items generalizing state with
  | nil => rfl
  | cons item items inductionHypothesis =>
      rw [foldUntil, foldUntil, same item List.mem_cons_self,
        inductionHypothesis fun other among => same other (List.mem_cons_of_mem _ among)]

theorem foldUntil_invariant {stop : State → Bool} {step : State → Item → State}
    {invariant : State → Prop} {items : List Item}
    (kept : ∀ state, ∀ item ∈ items, invariant state → stop state = false →
      invariant (step state item))
    {state : State} (holds : invariant state) (running : stop state = false) :
    invariant (foldUntil stop step items state) := by
  induction items generalizing state with
  | nil => exact holds
  | cons item items inductionHypothesis =>
      have next := kept state item List.mem_cons_self holds running
      rw [foldUntil]
      split
      · exact next
      · next goes =>
          exact inductionHypothesis
            (fun state item among => kept state item (List.mem_cons_of_mem _ among)) next
            (by simpa using goes)

/-- A run that stopped, behind one that goes on in its steps, or at the same state. -/
def Cut (stop : State → Bool) (behind : State → State → Prop) (cut full : State) : Prop :=
  cut = full ∨ stop cut = true ∧ behind cut full

variable {stop : State → Bool} {behind : State → State → Prop}

theorem Cut.trans {cut full later : State} (known : Cut stop behind cut full)
    (transitive : ∀ {first second third}, behind first second → behind second third →
      behind first third)
    (grown : behind full later) (stopped : stop cut = true) : Cut stop behind cut later := by
  rcases known with rfl | ⟨-, earlier⟩
  · exact .inr ⟨stopped, grown⟩
  · exact .inr ⟨stopped, transitive earlier grown⟩

theorem foldl_behind (reflexive : ∀ state, behind state state)
    (transitive : ∀ {first second third}, behind first second → behind second third →
      behind first third)
    {full : State → Item → State} (grows : ∀ state item, behind state (full state item))
    (items : List Item) (state : State) : behind state (items.foldl full state) := by
  induction items generalizing state with
  | nil => exact reflexive state
  | cons item items inductionHypothesis =>
      exact transitive (grows state item) (inductionHypothesis (full state item))

/-- A loop with a break stops behind the loop without one. -/
theorem foldUntil_cut (reflexive : ∀ state, behind state state)
    (transitive : ∀ {first second third}, behind first second → behind second third →
      behind first third)
    {step full : State → Item → State} (grows : ∀ state item, behind state (full state item))
    (agree : ∀ state item, Cut stop behind (step state item) (full state item))
    (items : List Item) (state : State) :
    Cut stop behind (foldUntil stop step items state) (items.foldl full state) := by
  induction items generalizing state with
  | nil => exact .inl rfl
  | cons item items inductionHypothesis =>
      have rest := foldl_behind reflexive transitive grows items (full state item)
      rw [foldUntil, List.foldl_cons]
      split
      next stopped => exact (agree state item).trans transitive rest stopped
      next goes =>
          rcases agree state item with same | ⟨stopped, -⟩
          · rw [same]
            exact inductionHypothesis (full state item)
          · exact absurd stopped goes

end Break

/-! ## Queues -/

section Queue

variable {State : Type u} {Item : Type v}

/-- Take items from the front of a queue until it is empty or a test holds; what an item leads to
is queued at the end. -/
def drain (stop : State → Bool) (expand : State → Item → State × List Item) :
    Nat → List Item → State → State
  | 0, _, state => state
  | _ + 1, [], state => state
  | fuel + 1, item :: queue, state =>
      if stop state then state
      else drain stop expand fuel (queue ++ (expand state item).2) (expand state item).1

theorem drain_stopped {stop : State → Bool} (expand : State → Item → State × List Item)
    (fuel : Nat) (queue : List Item) {state : State} (stopped : stop state = true) :
    drain stop expand fuel queue state = state := by
  cases fuel with
  | zero => rfl
  | succ fuel =>
      cases queue with
      | nil => rfl
      | cons item queue => rw [drain, if_pos stopped]

theorem drain_invariant {stop : State → Bool} {expand : State → Item → State × List Item}
    {invariant : State → Prop}
    (kept : ∀ state item, invariant state → stop state = false → invariant (expand state item).1)
    (fuel : Nat) (queue : List Item) {state : State} (holds : invariant state) :
    invariant (drain stop expand fuel queue state) := by
  induction fuel generalizing queue state with
  | zero => exact holds
  | succ fuel inductionHypothesis =>
      cases queue with
      | nil => exact holds
      | cons item queue =>
          rw [drain]
          split
          · exact holds
          next goes => exact inductionHypothesis _ (kept state item holds (by simpa using goes))

/-- A queue that is left at a limit is behind the one that is emptied. -/
theorem drain_cut {stop : State → Bool} {behind : State → State → Prop}
    (reflexive : ∀ state, behind state state)
    (transitive : ∀ {first second third}, behind first second → behind second third →
      behind first third)
    {expand full : State → Item → State × List Item}
    (grows : ∀ state item, behind state (full state item).1)
    (agree : ∀ state item, expand state item = full state item ∨
      stop (expand state item).1 = true ∧ behind (expand state item).1 (full state item).1)
    (fuel : Nat) (queue : List Item) (state : State) :
    Cut stop behind (drain stop expand fuel queue state)
      (drain (fun _ => false) full fuel queue state) := by
  have later : ∀ (fuel : Nat) (queue : List Item) (state : State),
      behind state (drain (fun _ => false) full fuel queue state) := by
    intro fuel queue state
    exact drain_invariant (fun middle item grown _ => transitive grown (grows middle item)) fuel
      queue (reflexive state)
  induction fuel generalizing queue state with
  | zero => exact .inl rfl
  | succ fuel inductionHypothesis =>
      cases queue with
      | nil => exact .inl rfl
      | cons item queue =>
          by_cases stopped : stop state = true
          · rw [drain_stopped expand (fuel + 1) _ stopped]
            exact .inr ⟨stopped, later _ _ _⟩
          · rw [drain, if_neg stopped, drain, if_neg Bool.false_ne_true]
            rcases agree state item with same | ⟨halted, behindNext⟩
            · rw [same]
              exact inductionHypothesis _ _
            · rw [drain_stopped expand fuel _ halted]
              exact .inr ⟨halted, transitive behindNext (later _ _ _)⟩

variable (expand : State → Item → State × List Item)

def level : List Item → State → State × List Item
  | [], state => (state, [])
  | item :: items, state =>
      ((level items (expand state item).1).1,
        (expand state item).2 ++ (level items (expand state item).1).2)

def rounds : Nat → List Item → State → State × List Item
  | 0, items, state => (state, items)
  | count + 1, items, state => rounds count (level expand items state).2 (level expand items state).1

theorem drain_level (items later : List Item) (fuel : Nat) (state : State) :
    drain (fun _ => false) expand (items.length + fuel) (items ++ later) state =
      drain (fun _ => false) expand fuel (later ++ (level expand items state).2)
        (level expand items state).1 := by
  induction items generalizing later state with
  | nil => simp [level]
  | cons item items inductionHypothesis =>
      have size : (item :: items).length + fuel = items.length + fuel + 1 := by
        rw [List.length_cons]
        omega
      rw [size, List.cons_append, drain, if_neg Bool.false_ne_true, List.append_assoc,
        inductionHypothesis, level, List.append_assoc]

theorem length_level_le {width : Nat}
    (narrow : ∀ state item, (expand state item).2.length ≤ width) (items : List Item)
    (state : State) : (level expand items state).2.length ≤ width * items.length := by
  induction items generalizing state with
  | nil => simp [level]
  | cons item items inductionHypothesis =>
      have first := narrow state item
      have rest := inductionHypothesis (expand state item).1
      rw [level, List.length_append, List.length_cons, Nat.mul_succ]
      omega

/-- A queue with enough steps is emptied level by level. -/
theorem drain_rounds {width : Nat} (narrow : ∀ state item, (expand state item).2.length ≤ width)
    (count : Nat) {items : List Item} {state : State}
    (done : (rounds expand count items state).2 = []) {fuel : Nat}
    (enough : items.length * (width + 1) ^ count ≤ fuel) :
    drain (fun _ => false) expand fuel items state = (rounds expand count items state).1 := by
  induction count generalizing items state fuel with
  | zero =>
      rw [rounds] at done
      subst done
      cases fuel <;> rfl
  | succ count inductionHypothesis =>
      let power := (width + 1) ^ count
      have positive : 1 ≤ power := Nat.one_le_pow _ _ (Nat.succ_pos width)
      have total : items.length * (width + 1) ^ (count + 1) =
          width * items.length * power + items.length * power := by
        change items.length * ((width + 1) ^ count * (width + 1)) = _
        ring
      have own : items.length ≤ items.length * power := Nat.le_mul_of_pos_right _ positive
      have next : (level expand items state).2.length * power ≤ width * items.length * power :=
        Nat.mul_le_mul_right _ (length_level_le expand narrow items state)
      obtain ⟨spare, rfl⟩ := Nat.exists_eq_add_of_le
        (show items.length ≤ fuel by omega)
      have split := drain_level expand items [] spare state
      rw [List.append_nil, List.nil_append] at split
      rw [split, rounds]
      refine inductionHypothesis done (le_trans next ?_)
      omega

end Queue

/-! ## Walks -/

section Walks

variable {Node : Type u}

inductive Walk (joined : Node → Node → Prop) : Nat → Node → Node → Prop where
  | nil (node : Node) : Walk joined 0 node node
  | snoc {count : Nat} {first middle last : Node} :
      Walk joined count first middle → joined middle last → Walk joined (count + 1) first last

theorem Walk.mono {joined wider : Node → Node → Prop}
    (widen : ∀ {first second}, joined first second → wider first second) {count : Nat}
    {first last : Node} (walk : Walk joined count first last) : Walk wider count first last := by
  induction walk with
  | nil node => exact .nil node
  | snoc _ step inductionHypothesis => exact .snoc inductionHypothesis (widen step)

def Within (joined : Node → Node → Prop) (sources : List Node) (bound : Nat) (node : Node) : Prop :=
  ∃ source ∈ sources, ∃ count ≤ bound, Walk joined count source node

variable {joined : Node → Node → Prop} {sources : List Node}

theorem within_zero {node : Node} : Within joined sources 0 node ↔ node ∈ sources := by
  constructor
  · rintro ⟨source, among, count, small, walk⟩
    obtain rfl := Nat.le_zero.mp small
    cases walk
    exact among
  · intro among
    exact ⟨node, among, 0, le_rfl, .nil node⟩

theorem Within.mono {small large : Nat} (ordered : small ≤ large) {node : Node}
    (near : Within joined sources small node) : Within joined sources large node := by
  obtain ⟨source, among, count, bounded, walk⟩ := near
  exact ⟨source, among, count, bounded.trans ordered, walk⟩

theorem Within.step {bound : Nat} {first second : Node}
    (near : Within joined sources bound first) (step : joined first second) :
    Within joined sources (bound + 1) second := by
  obtain ⟨source, among, count, bounded, walk⟩ := near
  exact ⟨source, among, count + 1, Nat.succ_le_succ bounded, .snoc walk step⟩

theorem within_succ {bound : Nat} {node : Node} :
    Within joined sources (bound + 1) node ↔
      Within joined sources bound node ∨
        ∃ before, Within joined sources bound before ∧ joined before node := by
  constructor
  · rintro ⟨source, among, count, bounded, walk⟩
    cases walk with
    | nil => exact .inl ⟨_, among, 0, Nat.zero_le _, .nil _⟩
    | snoc walk step =>
        exact .inr ⟨_, ⟨source, among, _, Nat.le_of_succ_le_succ bounded, walk⟩, step⟩
  · rintro (near | ⟨before, near, step⟩)
    · exact near.mono (Nat.le_succ bound)
    · exact near.step step

end Walks

/-! ## Exploration -/

/-- The nodes found, the edges taken and the nodes to go on from. -/
structure Visit (Node : Type u) (Edge : Type v) where
  visited : List Node
  edges : List Edge
  next : List Node

section Exploration

variable {Node : Type u} [DecidableEq Node] {Edge : Type v} {Key : Type w} [DecidableEq Key]

def takeEdge (key : Edge → Key) (edges : List Edge) (edge : Edge) : List Edge :=
  if key edge ∈ edges.map key then edges else edges ++ [edge]

def visitEdge (key : Edge → Key) (visit : Visit Node Edge) (joining : Edge × Node) :
    Visit Node Edge :=
  if joining.2 ∈ visit.visited then
    { visit with edges := takeEdge key visit.edges joining.1 }
  else
    { visited := visit.visited ++ [joining.2]
      edges := takeEdge key visit.edges joining.1
      next := visit.next ++ [joining.2] }

omit [DecidableEq Node] in
theorem takeEdge_isPrefix (key : Edge → Key) (edges : List Edge) (edge : Edge) :
    edges <+: takeEdge key edges edge := by
  unfold takeEdge
  split
  · exact List.prefix_rfl
  · exact List.prefix_append _ _

theorem map_takeEdge (key : Edge → Key) (edges : List Edge) (edge : Edge) :
    (takeEdge key edges edge).map key =
      if key edge ∈ edges.map key then edges.map key else edges.map key ++ [key edge] := by
  unfold takeEdge
  split <;> simp

theorem mem_map_takeEdge (key : Edge → Key) (edges : List Edge) (edge : Edge) (wanted : Key) :
    wanted ∈ (takeEdge key edges edge).map key ↔ wanted ∈ edges.map key ∨ wanted = key edge := by
  rw [map_takeEdge]
  split
  next present => exact ⟨.inl, fun either => either.elim id fun same => same ▸ present⟩
  · rw [List.mem_append, List.mem_singleton]

theorem nodup_takeEdge (key : Edge → Key) {edges : List Edge} (edge : Edge)
    (distinct : (edges.map key).Nodup) : ((takeEdge key edges edge).map key).Nodup := by
  rw [map_takeEdge]
  split
  · exact distinct
  next fresh =>
      exact List.nodup_append'.mpr ⟨distinct, List.nodup_singleton _, by simpa using fresh⟩

theorem mem_takeEdge {key : Edge → Key} {edges : List Edge} {edge kept : Edge}
    (among : kept ∈ takeEdge key edges edge) : kept ∈ edges ∨ kept = edge := by
  unfold takeEdge at among
  split at among
  · exact .inl among
  · simpa using among

def Begins (first second : Visit Node Edge) : Prop :=
  first.visited <+: second.visited ∧ first.edges <+: second.edges

omit [DecidableEq Node] in
theorem Begins.refl (visit : Visit Node Edge) : Begins visit visit :=
  ⟨List.prefix_rfl, List.prefix_rfl⟩

omit [DecidableEq Node] in
theorem Begins.trans {first second third : Visit Node Edge} (earlier : Begins first second)
    (later : Begins second third) : Begins first third :=
  ⟨earlier.1.trans later.1, earlier.2.trans later.2⟩

theorem visitEdge_begins (key : Edge → Key) (visit : Visit Node Edge) (joining : Edge × Node) :
    Begins visit (visitEdge key visit joining) := by
  unfold visitEdge
  split
  · exact ⟨List.prefix_rfl, takeEdge_isPrefix key visit.edges joining.1⟩
  · exact ⟨List.prefix_append _ _, takeEdge_isPrefix key visit.edges joining.1⟩

structure Visited (key : Edge → Key) (joinings : List (Edge × Node))
    (before after : Visit Node Edge) : Prop where
  nodes : ∀ node, node ∈ after.visited ↔
    node ∈ before.visited ∨ node ∈ joinings.map Prod.snd
  next : ∀ node, node ∈ after.next ↔
    node ∈ before.next ∨ node ∈ joinings.map Prod.snd ∧ node ∉ before.visited
  taken : ∀ edge ∈ after.edges, edge ∈ before.edges ∨ edge ∈ joinings.map Prod.fst
  keys : ∀ wanted, wanted ∈ after.edges.map key ↔
    wanted ∈ before.edges.map key ∨ wanted ∈ joinings.map fun joining => key joining.1
  distinctNodes : before.visited.Nodup → after.visited.Nodup
  distinctEdges : (before.edges.map key).Nodup → (after.edges.map key).Nodup

theorem visitEdge_edges (key : Edge → Key) (visit : Visit Node Edge) (joining : Edge × Node) :
    (visitEdge key visit joining).edges = takeEdge key visit.edges joining.1 := by
  unfold visitEdge
  split <;> rfl

theorem visitEdge_visited (key : Edge → Key) (visit : Visit Node Edge) (joining : Edge × Node) :
    Visited key [joining] visit (visitEdge key visit joining) := by
  constructor
  · intro node
    unfold visitEdge
    split <;> aesop
  · intro node
    unfold visitEdge
    split <;> aesop
  · intro edge among
    rw [visitEdge_edges] at among
    exact (mem_takeEdge among).imp_right fun same => by simp [same]
  · intro wanted
    rw [visitEdge_edges, mem_map_takeEdge, List.map_singleton, List.mem_singleton]
  · intro distinct
    unfold visitEdge
    split
    · exact distinct
    next fresh =>
        exact List.nodup_append'.mpr ⟨distinct, List.nodup_singleton _, by simpa using fresh⟩
  · intro distinct
    rw [visitEdge_edges]
    exact nodup_takeEdge key joining.1 distinct

theorem visitEdges_visited (key : Edge → Key) (joinings : List (Edge × Node))
    (visit : Visit Node Edge) :
    Visited key joinings visit (joinings.foldl (visitEdge key) visit) := by
  induction joinings generalizing visit with
  | nil =>
      exact ⟨by simp, by simp, by simp, by simp, fun distinct => distinct, fun distinct => distinct⟩
  | cons joining rest inductionHypothesis =>
      have first := visitEdge_visited key visit joining
      have later := inductionHypothesis (visitEdge key visit joining)
      rw [List.foldl_cons]
      constructor
      · intro node
        rw [later.nodes, first.nodes]
        simp [or_assoc]
      · intro node
        rw [later.next, first.next, first.nodes]
        simp only [List.map_cons, List.map_nil, List.mem_cons]
        tauto
      · intro edge among
        rcases later.taken edge among with earlier | new
        · rcases first.taken edge earlier with old | this_
          · exact .inl old
          · exact .inr (by simp at this_; simp [this_])
        · exact .inr (List.mem_cons_of_mem _ new)
      · intro wanted
        rw [later.keys, first.keys]
        simp [or_assoc]
      · exact fun distinct => later.distinctNodes (first.distinctNodes distinct)
      · exact fun distinct => later.distinctEdges (first.distinctEdges distinct)

variable (adjacent : Node → List (Edge × Node))

/-- Some edge leads from one node to the other. -/
def Joined (first second : Node) : Prop := ∃ edge, (edge, second) ∈ adjacent first

/-- Take the edges of all nodes to go on from. -/
def exploreLevel (key : Edge → Key) (visit : Visit Node Edge) : Visit Node Edge :=
  (visit.next.flatMap adjacent).foldl (visitEdge key) { visit with next := [] }

/-- What is found in some levels from some sources. -/
structure Explored (key : Edge → Key) (sources : List Node) (bound : Nat)
    (visit : Visit Node Edge) : Prop where
  distinctNodes : visit.visited.Nodup
  distinctEdges : (visit.edges.map key).Nodup
  nodes : ∀ node, node ∈ visit.visited ↔ Within (Joined adjacent) sources bound node
  frontier : ∀ node ∈ visit.next, Within (Joined adjacent) sources bound node
  /-- The nodes to go on from are those no smaller bound reaches, and perhaps others. -/
  behind : ∀ node, Within (Joined adjacent) sources bound node → node ∉ visit.next →
    ∃ smaller < bound, Within (Joined adjacent) sources smaller node
  taken : ∀ edge ∈ visit.edges, ∃ smaller < bound, ∃ first second,
    Within (Joined adjacent) sources smaller first ∧ (edge, second) ∈ adjacent first
  complete : ∀ smaller < bound, ∀ first second edge,
    Within (Joined adjacent) sources smaller first → (edge, second) ∈ adjacent first →
      key edge ∈ visit.edges.map key

variable {adjacent}

omit [DecidableEq Node] [DecidableEq Key] in
theorem Explored.start (key : Edge → Key) {sources visited : List Node} (distinct : visited.Nodup)
    (same : ∀ node, node ∈ visited ↔ node ∈ sources) :
    Explored adjacent key sources 0 (⟨visited, [], sources⟩ : Visit Node Edge) where
  distinctNodes := distinct
  distinctEdges := List.nodup_nil
  nodes node := (same node).trans within_zero.symm
  frontier _ among := within_zero.mpr among
  behind node near apart := absurd (within_zero.mp near) apart
  taken := by simp
  complete := by simp

/-- One more level reaches one step further. -/
theorem Explored.level {key : Edge → Key} {sources : List Node} {bound : Nat}
    {visit : Visit Node Edge} (explored : Explored adjacent key sources bound visit) :
    Explored adjacent key sources (bound + 1) (exploreLevel adjacent key visit) := by
  let joinings := visit.next.flatMap adjacent
  have step := visitEdges_visited key joinings { visit with next := [] }
  have mem_joinings : ∀ edge node, (edge, node) ∈ joinings ↔
      ∃ first ∈ visit.next, (edge, node) ∈ adjacent first := by
    intro edge node
    exact List.mem_flatMap
  have reached : ∀ node, node ∈ joinings.map Prod.snd ↔
      ∃ first ∈ visit.next, Joined adjacent first node := by
    intro node
    constructor
    · intro among
      obtain ⟨⟨edge, _⟩, joiningIn, rfl⟩ := List.mem_map.mp among
      obtain ⟨first, firstIn, leaves⟩ := (mem_joinings edge _).mp joiningIn
      exact ⟨first, firstIn, edge, leaves⟩
    · rintro ⟨first, firstIn, edge, leaves⟩
      exact List.mem_map.mpr ⟨(edge, node), (mem_joinings edge node).mpr ⟨first, firstIn, leaves⟩, rfl⟩
  have nodes : ∀ node, node ∈ (exploreLevel adjacent key visit).visited ↔
      Within (Joined adjacent) sources (bound + 1) node := by
    intro node
    rw [within_succ]
    refine (step.nodes node).trans ⟨?_, ?_⟩
    · rintro (old | new)
      · exact .inl ((explored.nodes node).mp old)
      · obtain ⟨first, firstIn, joined⟩ := (reached node).mp new
        exact .inr ⟨first, explored.frontier first firstIn, joined⟩
    · rintro (near | ⟨before, near, joined⟩)
      · exact .inl ((explored.nodes node).mpr near)
      · -- A node behind the frontier was left in an earlier level.
        by_cases ahead : before ∈ visit.next
        · exact .inr ((reached node).mpr ⟨before, ahead, joined⟩)
        · obtain ⟨smaller, below, nearer⟩ := explored.behind before near ahead
          exact .inl ((explored.nodes node).mpr ((nearer.step joined).mono below))
  constructor
  · exact step.distinctNodes explored.distinctNodes
  · exact step.distinctEdges explored.distinctEdges
  · exact nodes
  · intro node among
    rcases (step.next node).mp among with old | ⟨new, -⟩
    · exact absurd old List.not_mem_nil
    · obtain ⟨first, firstIn, joined⟩ := (reached node).mp new
      exact (explored.frontier first firstIn).step joined
  · intro node near apart
    have found := (nodes node).mpr near
    rcases (step.nodes node).mp found with old | new
    · exact ⟨bound, Nat.lt_succ_self bound, (explored.nodes node).mp old⟩
    · by_cases old : node ∈ visit.visited
      · exact ⟨bound, Nat.lt_succ_self bound, (explored.nodes node).mp old⟩
      · exact absurd ((step.next node).mpr (.inr ⟨new, old⟩)) apart
  · intro edge among
    rcases step.taken edge among with old | new
    · obtain ⟨smaller, below, leaving⟩ := explored.taken edge old
      exact ⟨smaller, below.trans (Nat.lt_succ_self bound), leaving⟩
    · obtain ⟨⟨_, second⟩, joiningIn, rfl⟩ := List.mem_map.mp new
      obtain ⟨first, firstIn, leaves⟩ := (mem_joinings _ second).mp joiningIn
      exact ⟨bound, Nat.lt_succ_self bound, first, second, explored.frontier first firstIn, leaves⟩
  · intro smaller below first second edge near leaves
    refine (step.keys (key edge)).mpr ?_
    by_cases ahead : first ∈ visit.next
    · right
      exact List.mem_map.mpr ⟨(edge, second), (mem_joinings edge second).mpr ⟨first, ahead, leaves⟩,
        rfl⟩
    · obtain ⟨nearer, nearerBelow, nearFirst⟩ :=
        explored.behind first (near.mono (Nat.le_of_lt_succ below)) ahead
      exact .inl (explored.complete nearer nearerBelow first second edge nearFirst leaves)

theorem exploreLevel_done {key : Edge → Key} {visit : Visit Node Edge} (done : visit.next = []) :
    exploreLevel adjacent key visit = visit := by
  obtain ⟨visited, edges, next⟩ := visit
  obtain rfl : next = [] := done
  rfl

theorem Explored.levels {key : Edge → Key} {sources : List Node} {bound : Nat}
    {visit : Visit Node Edge} (explored : Explored adjacent key sources bound visit) (more : Nat) :
    Explored adjacent key sources (bound + more) ((exploreLevel adjacent key)^[more] visit) := by
  induction more with
  | zero => exact explored
  | succ more inductionHypothesis =>
      rw [Function.iterate_succ_apply']
      exact inductionHypothesis.level

theorem exploreLevel_begins (key : Edge → Key) (visit : Visit Node Edge) :
    Begins visit (exploreLevel adjacent key visit) := by
  have grown := foldl_behind Begins.refl Begins.trans (visitEdge_begins key)
    (visit.next.flatMap adjacent) { visit with next := [] }
  exact ⟨grown.1, grown.2⟩

theorem exploreLevels_begins (key : Edge → Key) (more : Nat) (visit : Visit Node Edge) :
    Begins visit ((exploreLevel adjacent key)^[more] visit) := by
  induction more generalizing visit with
  | zero => exact Begins.refl visit
  | succ more inductionHypothesis =>
      rw [Function.iterate_succ_apply]
      exact (exploreLevel_begins key visit).trans (inductionHypothesis _)

end Exploration

theorem ncard_of_listed {Element : Type u} {listed : List Element} (distinct : listed.Nodup)
    {elements : Set Element} (same : ∀ element, element ∈ listed ↔ element ∈ elements) :
    elements.ncard = listed.length := by
  classical
  have finite : elements = (listed.toFinset : Set Element) := by
    ext element
    simp [same]
  rw [finite, Set.ncard_coe_finset, List.toFinset_card_of_nodup distinct]

theorem take_of_begins {Element : Type u} {first second : List Element} (begins : first <+: second)
    {limit : Nat} (long : limit ≤ first.length) : second.take limit = first.take limit := by
  obtain ⟨rest, rfl⟩ := begins
  exact List.take_append_of_le_length long

end LlmWikiServe.Traversal
