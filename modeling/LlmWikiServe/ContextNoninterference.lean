import LlmWikiServe.Service

/-!
# Withheld pages in manifest and context

The answers to requests without drafts are computed from the visible pages, but title and
description come from the first hub page, withheld or not.
-/

namespace LlmWikiServe

/-- The page that gives a wiki its title and description. -/
def namingPage (pages : List WikiPage) : Option WikiPage :=
  (pages.find? fun page => page.role = .index).or (pages.find? fun page => page.role = .overview)

section Titles

variable [Interpreter]

def givenTitle (page : WikiPage) : Text :=
  (Value.orElse (page.frontmatter.getD "wiki_title") (.str page.title)).toText

def givenDescription (page : WikiPage) : Text :=
  (Value.orElse (page.frontmatter.getD "description") (.str [])).toText

theorem markdownMetadata_eq (rootName : Text) (pages : List WikiPage) :
    markdownMetadata rootName pages =
      match namingPage pages with
      | some page => (givenTitle page, givenDescription page)
      | none => (rootName, []) := by
  have named : (pages.find? fun page => page.role = .index).or
      (pages.find? fun page => page.role = .overview) = namingPage pages := rfl
  simp only [markdownMetadata, named]
  cases namingPage pages with
  | none => rfl
  | some page => rfl

end Titles

section Noninterference

variable [Unicode]

/-- Two versions of a page that differ, if at all, in what is withheld. -/
structure DraftVariant (page other : WikiPage) : Prop where
  id : page.id = other.id
  path : page.path = other.path
  role : page.role = other.role
  approved : page.approvedForServing = other.approvedForServing
  served : page.approvedForServing = true → page = other

/-- Two page lists that differ in the contents of withheld pages only. -/
def DraftVariants (first second : List WikiPage) : Prop := List.Forall₂ DraftVariant first second

theorem DraftVariants.visible {first second : List WikiPage}
    (variants : DraftVariants first second) :
    visiblePages first false = visiblePages second false := by
  change first.filter WikiPage.approvedForServing = second.filter WikiPage.approvedForServing
  induction variants with
  | nil => rfl
  | @cons page other rest others variant _ inductionHypothesis =>
      rw [List.filter_cons, List.filter_cons, ← variant.approved, inductionHypothesis]
      cases served : page.approvedForServing with
      | false => rfl
      | true => rw [variant.served served]

theorem DraftVariants.find? {first second : List WikiPage}
    (variants : DraftVariants first second) (role : PageRole) :
    Option.Rel DraftVariant (first.find? fun page => page.role = role)
      (second.find? fun page => page.role = role) := by
  induction variants with
  | nil => exact .none
  | @cons page other rest others variant _ inductionHypothesis =>
      rw [List.find?_cons, List.find?_cons, ← variant.role]
      cases decide (page.role = role) with
      | false => exact inductionHypothesis
      | true => exact .some variant

theorem DraftVariants.namingPage {first second : List WikiPage}
    (variants : DraftVariants first second) :
    Option.Rel DraftVariant (namingPage first) (namingPage second) := by
  unfold LlmWikiServe.namingPage
  have index := variants.find? .index
  generalize first.find? (fun page => page.role = PageRole.index) = left at index
  generalize second.find? (fun page => page.role = PageRole.index) = right at index
  cases index with
  | none => exact variants.find? .overview
  | some variant => exact .some variant

variable [Interpreter]

/-- The page that names the wiki is served, or its versions give the same title and description. -/
def NamedAlike (first second : List WikiPage) : Prop :=
  ∀ page other, namingPage first = some page → namingPage second = some other →
    page.approvedForServing = true ∨
      (givenTitle page = givenTitle other ∧ givenDescription page = givenDescription other)

theorem markdownMetadata_agree_iff {first second : List WikiPage}
    (variants : DraftVariants first second) (rootName : Text) :
    markdownMetadata rootName first = markdownMetadata rootName second ↔
      NamedAlike first second := by
  rw [markdownMetadata_eq, markdownMetadata_eq]
  unfold NamedAlike
  have named := variants.namingPage
  generalize namingPage first = left at named
  generalize namingPage second = right at named
  cases named with
  | none => simp
  | @some page other variant =>
      simp only [Option.some.injEq, Prod.mk.injEq]
      constructor
      · rintro same _ _ rfl rfl
        exact Or.inr same
      · intro alike
        rcases alike page other rfl rfl with served | same
        · rw [variant.served served]
          exact ⟨rfl, rfl⟩
        · exact same

structure TitledIndex (rootName : Text) (pages : List WikiPage) (index : WikiIndex) : Prop where
  listed : index.pages = pages
  titled : (index.title, index.description) = markdownMetadata rootName pages

structure SameOrigin (first second : WikiIndex) : Prop where
  root : first.root = second.root
  adapter : first.adapter = second.adapter
  implementation : first.implementation = second.implementation
  metadata : first.metadata = second.metadata

/-- The parts of a manifest that name the source. -/
def WikiManifest.naming (manifest : WikiManifest) : Text × Text × Text × Text :=
  (manifest.title, manifest.description, manifest.sourceId, manifest.publicUri)

def ContextPack.told {R : Type} (pack : ContextPack R) :
    Text × Text × List (ContextSearchResult R) × List (ContextSearchResult R) ×
      RetrievalGuidance :=
  (pack.wikiTitle, pack.description, pack.orientation, pack.evidence, pack.retrievalGuidance)

theorem manifest_agree [Hashing] {first second : WikiIndex} (origin : SameOrigin first second)
    (title : first.title = second.title) (description : first.description = second.description)
    (settings : ServiceSettings) (tree otherTree : FileTree) (digest otherDigest : Text)
    (enableA2aCompat : Bool) :
    (manifest settings tree digest first enableA2aCompat).naming =
      (manifest settings otherTree otherDigest second enableA2aCompat).naming := by
  have sourceId : serviceSourceId settings first = serviceSourceId settings second := by
    unfold serviceSourceId sourceIdForIndex
    rw [title, origin.root]
  simp only [WikiManifest.naming, manifest, title, description, sourceId]

variable {R : Type} [Floats R] [Stemming]

omit [Interpreter] in
theorem context_agree {first second : WikiIndex} (adapter : first.adapter = second.adapter)
    (title : first.title = second.title) (description : first.description = second.description)
    (visible : visiblePages first.pages false = visiblePages second.pages false)
    (settings : ServiceSettings) {request : SearchRequest R}
    (approvedOnly : request.includeDrafts = false) :
    (context settings first request).map ContextPack.told =
      (context settings second request).map ContextPack.told := by
  have evidence : search settings none first request = search settings none second request := by
    unfold search searchResultObjects
    rw [approvedOnly, visible]
  have guidance : ∀ modes, buildRetrievalGuidance first.adapter first.pages request.query false
      modes = buildRetrievalGuidance second.adapter second.pages request.query false modes := by
    intro modes
    rw [buildRetrievalGuidance_visible, buildRetrievalGuidance_visible second.adapter, visible,
      adapter]
  unfold context
  rw [evidence, approvedOnly, visible, guidance]
  cases search settings none second request with
  | error error => rfl
  | ok results =>
      cases buildRetrievalGuidance second.adapter second.pages request.query false
          settings.fallbackModes with
      | error error => rfl
      | ok built =>
          simp only [bind, Except.bind, pure, Except.pure, Except.map, ContextPack.told, title,
            description]

/-- Two runs that differ in withheld contents are told apart neither by title and description nor
by manifest and context. -/
def DraftsUnobserved [Hashing] (rootName : Text) (first second : List WikiPage) : Prop :=
  markdownMetadata rootName first = markdownMetadata rootName second ∧
    ∀ firstIndex secondIndex, TitledIndex rootName first firstIndex →
      TitledIndex rootName second secondIndex → SameOrigin firstIndex secondIndex →
        (∀ settings tree otherTree digest otherDigest enableA2aCompat,
          (manifest settings tree digest firstIndex enableA2aCompat).naming =
            (manifest settings otherTree otherDigest secondIndex enableA2aCompat).naming) ∧
          ∀ settings (request : SearchRequest R), request.includeDrafts = false →
            (context settings firstIndex request).map ContextPack.told =
              (context settings secondIndex request).map ContextPack.told

/-- Withheld contents stay unobserved exactly when the page that names the wiki is served or
names it alike in both versions. -/
theorem draftsUnobserved_iff [Hashing] (rootName : Text) {first second : List WikiPage}
    (variants : DraftVariants first second) :
    DraftsUnobserved (R := R) rootName first second ↔ NamedAlike first second := by
  rw [← markdownMetadata_agree_iff variants rootName]
  constructor
  · exact And.left
  · intro same
    refine ⟨same, fun firstIndex secondIndex firstTitled secondTitled origin => ?_⟩
    have titles : (firstIndex.title, firstIndex.description) =
        (secondIndex.title, secondIndex.description) := by
      rw [firstTitled.titled, secondTitled.titled, same]
    obtain ⟨title, description⟩ := Prod.mk.inj titles
    have visible : visiblePages firstIndex.pages false = visiblePages secondIndex.pages false := by
      rw [firstTitled.listed, secondTitled.listed]
      exact variants.visible
    exact ⟨manifest_agree origin title description,
      fun settings request approvedOnly =>
        context_agree origin.adapter title description visible settings approvedOnly⟩

end Noninterference

section Sample

attribute [local instance] Unicode.ascii Value.plainInterpreter Hashing.transparent
  Floats.rational Stemming.identity

def draftIndex (title : Text) : WikiPage where
  id := "index"
  title := title
  path := "index.md"
  role := .index
  text := []
  reviewState := .draft

theorem draftIndex_variants (title other : Text) :
    DraftVariants [draftIndex title] [draftIndex other] := by
  have withheld : (draftIndex title).approvedForServing = false := rfl
  have same : (draftIndex title).approvedForServing = true → draftIndex title = draftIndex other :=
    fun served => absurd served (by rw [withheld]; decide)
  exact .cons ⟨rfl, rfl, rfl, rfl, same⟩ .nil

def servedIndex : WikiPage where
  id := "index"
  title := "Wiki"
  path := "index.md"
  role := .index
  text := []

def draftPlan (title : Text) : WikiPage where
  id := "plan"
  title := title
  path := "plan.md"
  role := .topic
  text := []
  reviewState := .draft

theorem draftPlan_variants (title other : Text) :
    DraftVariants [servedIndex, draftPlan title] [servedIndex, draftPlan other] := by
  have withheld : (draftPlan title).approvedForServing = false := rfl
  have same : (draftPlan title).approvedForServing = true → draftPlan title = draftPlan other :=
    fun served => absurd served (by rw [withheld]; decide)
  exact .cons ⟨rfl, rfl, rfl, rfl, fun _ => rfl⟩ (.cons ⟨rfl, rfl, rfl, rfl, same⟩ .nil)

/-- The title of a draft is not observed where a served page names the wiki. -/
theorem draftsUnobserved_iff_sameTitle :
    DraftsUnobserved (R := ℚ) "wiki" [servedIndex, draftPlan "Merger"]
      [servedIndex, draftPlan "Layoffs"] := by
  refine (draftsUnobserved_iff "wiki" (draftPlan_variants "Merger" "Layoffs")).mpr ?_
  intro page other named _
  obtain rfl : servedIndex = page := Option.some.inj named
  exact Or.inl rfl

/-- The title of a withheld index page is the title of the wiki. -/
theorem draftTitle_observed :
    ¬ ∀ first second : List WikiPage, DraftVariants first second →
      DraftsUnobserved (R := ℚ) "wiki" first second := by
  intro claimed
  have same := (claimed _ _ (draftIndex_variants "Merger" "Layoffs")).1
  exact absurd (congrArg Prod.fst same) (by decide)

end Sample

end LlmWikiServe
