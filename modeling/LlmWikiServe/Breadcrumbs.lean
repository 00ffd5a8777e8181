import LlmWikiServe.PageParagraphs

/-!
# Breadcrumbs and enclosing headings

The loop keeps a heading by its place in the breadcrumb and not by its level, so the breadcrumb
names the headings that enclose a paragraph only where no heading outlasts one of its level.
-/

namespace LlmWikiServe.VectorChunks

/-- The headings that no later heading of the same or a lower level follows. -/
def enclosing : List Heading → List Heading
  | [] => []
  | heading :: later =>
      if later.all fun other => heading.level < other.level then heading :: enclosing later
      else enclosing later

/-- Every heading that only deeper places follow than its own place in the breadcrumb is
followed by higher levels only; `depth` headings are open before. -/
def keepsChain : Nat → List Nat → Bool
  | _, [] => true
  | depth, level :: later =>
      let place := min level (depth + 1)
      (!later.all (fun other => place < other) || later.all fun other => level < other) &&
        keepsChain place later

/-- The headings the breadcrumb keeps of those entered when `depth` headings are open. -/
def keptHeadings : Nat → List Heading → List Heading
  | _, [] => []
  | depth, heading :: later =>
      let place := min heading.level (depth + 1)
      if later.all fun other => place < other.level then heading :: keptHeadings place later
      else keptHeadings place later

/-- The entries of an older breadcrumb that some headings leave. -/
def leftOver (breadcrumb : List Text) (headings : List Heading) : List Text :=
  headings.foldl (fun kept heading => kept.take (heading.level - 1)) breadcrumb

theorem leftOver_append (breadcrumb : List Text) (label : Text) {headings : List Heading}
    (levels : ∀ heading ∈ headings, 0 < heading.level) :
    leftOver (breadcrumb ++ [label]) headings =
      leftOver breadcrumb headings ++
        if headings.all fun heading => breadcrumb.length + 1 < heading.level then [label]
        else [] := by
  induction headings generalizing breadcrumb with
  | nil => simp [leftOver]
  | cons heading later inductionHypothesis =>
      have laterLevels := fun other otherIn => levels other (List.mem_cons_of_mem _ otherIn)
      have positive := levels heading List.mem_cons_self
      rw [leftOver, leftOver, List.foldl_cons, List.foldl_cons, List.all_cons]
      by_cases beyond : breadcrumb.length + 1 < heading.level
      · rw [List.take_of_length_le (by simp; omega), List.take_of_length_le (by omega)]
        have further := inductionHypothesis breadcrumb laterLevels
        simpa [leftOver, beyond] using further
      · rw [List.take_append_of_le_length (by omega)]
        simp [beyond]

theorem foldl_enterHeading (breadcrumb : List Text) {headings : List Heading}
    (levels : ∀ heading ∈ headings, 0 < heading.level) :
    headings.foldl enterHeading breadcrumb =
      leftOver breadcrumb headings ++
        (keptHeadings breadcrumb.length headings).map Heading.label := by
  induction headings generalizing breadcrumb with
  | nil => simp [leftOver, keptHeadings]
  | cons heading later inductionHypothesis =>
      have laterLevels := fun other otherIn => levels other (List.mem_cons_of_mem _ otherIn)
      have positive := levels heading List.mem_cons_self
      have place : (breadcrumb.take (heading.level - 1)).length + 1 =
          min heading.level (breadcrumb.length + 1) := by
        rw [List.length_take]
        omega
      rw [List.foldl_cons, inductionHypothesis _ laterLevels, enterHeading,
        leftOver_append _ _ laterLevels, List.length_append, List.length_singleton, place,
        leftOver, leftOver, List.foldl_cons, keptHeadings]
      split
      · simp
      · simp

theorem length_enclosing_le (depth : Nat) (headings : List Heading) :
    (enclosing headings).length ≤ (keptHeadings depth headings).length := by
  induction headings generalizing depth with
  | nil => exact le_rfl
  | cons heading later inductionHypothesis =>
      have shorter := inductionHypothesis (min heading.level (depth + 1))
      rw [enclosing, keptHeadings]
      split
      next encloses =>
        rw [if_pos]
        · simpa using shorter
        · simp only [List.all_eq_true, decide_eq_true_eq] at encloses ⊢
          exact fun other otherIn => lt_of_le_of_lt (min_le_left _ _) (encloses other otherIn)
      next =>
        split
        · simp only [List.length_cons]
          omega
        · exact shorter

theorem keptHeadings_iff (depth : Nat) (headings : List Heading) :
    (keptHeadings depth headings).map Heading.label = (enclosing headings).map Heading.label ↔
      keepsChain depth (headings.map Heading.level) = true := by
  induction headings generalizing depth with
  | nil => simp [keptHeadings, enclosing, keepsChain]
  | cons heading later inductionHypothesis =>
      have induct := inductionHypothesis (min heading.level (depth + 1))
      have shorter := length_enclosing_le (min heading.level (depth + 1)) later
      rw [keptHeadings, enclosing, List.map_cons, keepsChain]
      simp only [List.all_map, Function.comp_def]
      by_cases kept : (later.all fun other => min heading.level (depth + 1) < other.level) = true
      · by_cases encloses : (later.all fun other => heading.level < other.level) = true
        · rw [if_pos kept, if_pos encloses, kept, encloses]
          simpa using induct
        · rw [if_pos kept, if_neg encloses]
          constructor
          · intro same
            have lengths := congrArg List.length same
            simp only [List.length_map, List.length_cons] at lengths
            omega
          · intro chain
            rw [kept, Bool.eq_false_iff.mpr encloses] at chain
            simp at chain
      · have open_ : ¬ (later.all fun other => heading.level < other.level) = true := by
          intro encloses
          apply kept
          simp only [List.all_eq_true, decide_eq_true_eq] at encloses ⊢
          exact fun other otherIn => lt_of_le_of_lt (min_le_left _ _) (encloses other otherIn)
        rw [if_neg kept, if_neg open_, Bool.eq_false_iff.mpr kept]
        simpa using induct

theorem level_pos {line : Text} {heading : Heading} (found : heading? line = some heading) :
    0 < heading.level := by
  obtain ⟨matched, matchedIn, rfl⟩ := Option.map_eq_some_iff.mp found
  have consumes : (Pattern.times (.char '#') 1 6).Consumes :=
    (Pattern.consumes_one _).seq fun cursor next among => (Pattern.reaches_run _ cursor next among).shorter
  obtain ⟨value, read, nonempty⟩ :=
    @Pattern.group?_ne_nil _ _ _ 1 _ _ consumes (by decide) matchedIn
  simp only [read, Option.getD_some]
  exact List.length_pos_iff.mpr nonempty

theorem level_pos_of_mem {position : Nat} {lines : List (Nat × Text)} {heading : Heading}
    (among : heading ∈ headingsUpTo position lines) : 0 < heading.level := by
  obtain ⟨line, _, found⟩ := List.mem_filterMap.mp among
  split at found
  · exact level_pos found
  · cases found

theorem breadcrumbOf_iff {headings : List Heading}
    (levels : ∀ heading ∈ headings, 0 < heading.level) :
    breadcrumbOf headings = (enclosing headings).map Heading.label ↔
      keepsChain 0 (headings.map Heading.level) = true := by
  have emptied : leftOver [] headings = [] := by
    apply List.foldlRecOn (motive := fun kept => kept = [])
    · rfl
    · rintro _ rfl _ _
      exact List.take_nil
  rw [breadcrumbOf, foldl_enterHeading [] levels, emptied]
  exact keptHeadings_iff 0 headings

def headingsBefore (page : WikiPage) (position : Nat) : List Heading :=
  headingsUpTo position (textLines (normalizedPageText page.text))

/-- The breadcrumb of every paragraph lists the headings that enclose it if and only if before no
body line a heading outlasts, by its place, a heading of its level or a lower one. -/
theorem breadcrumb_enclosing_iff (page : WikiPage) :
    (∀ paragraph ∈ pageParagraphs page,
      paragraph.breadcrumb =
        (enclosing (headingsBefore page paragraph.start)).map Heading.label) ↔
    ∀ line ∈ textLines (normalizedPageText page.text), IsBody line.2 →
      keepsChain 0 ((headingsBefore page line.1).map Heading.level) = true := by
  have spec := pageParagraphs_spec page
  have each : ∀ paragraph ∈ pageParagraphs page,
      (paragraph.breadcrumb =
        (enclosing (headingsBefore page paragraph.start)).map Heading.label ↔
      keepsChain 0 ((headingsBefore page paragraph.start).map Heading.level) = true) := by
    intro paragraph among
    rw [spec.labelled paragraph among]
    exact breadcrumbOf_iff (fun heading headingIn => level_pos_of_mem headingIn)
  constructor
  · intro right line lineIn body
    obtain ⟨paragraph, among, low, high⟩ := spec.covered line lineIn body
    rw [headingsBefore, spec.headingsUpTo_inside among low (by omega)]
    exact (each paragraph among).mp (right paragraph among)
  · intro chains paragraph among
    obtain ⟨line, lineIn, body, here⟩ := spec.begins paragraph among
    rw [each paragraph among, ← here]
    exact chains line lineIn body

/-- A page whose sections are of level two. -/
def sectionsPage : WikiPage where
  id := "page"
  title := "Title"
  path := "page.md"
  role := .topic
  text := "## First\n\n## Second\n\nA paragraph."

/-- The breadcrumb of the second section names the first one. -/
theorem sibling_in_breadcrumb :
    (pageParagraphs sectionsPage).map Paragraph.breadcrumb =
        [[("First" : Text), "Second"]] ∧
      ¬ ∀ paragraph ∈ pageParagraphs sectionsPage, paragraph.breadcrumb =
        (enclosing (headingsBefore sectionsPage paragraph.start)).map Heading.label := by
  decide +kernel

end LlmWikiServe.VectorChunks
