import LlmWikiServe.SourceBundles

/-!
# Identity of source references

Every key of a visible page gets an id of its own, and the reference under the id links the pages
with the key.
-/

namespace LlmWikiServe

/-! ## Numbered ids -/

theorem numberedRefId_first (usedIds : List Text) (candidate : Text) (fuel counter : Nat)
    (enough : ∃ counter' ≥ counter, counter' ≤ counter + fuel ∧
      candidate ++ '-' :: Text.ofNat counter' ∉ usedIds) :
    ∃ counter' ≥ counter,
      numberedRefId usedIds candidate fuel counter = candidate ++ '-' :: Text.ofNat counter' ∧
      candidate ++ '-' :: Text.ofNat counter' ∉ usedIds ∧
      ∀ earlier ≥ counter, earlier < counter' →
        candidate ++ '-' :: Text.ofNat earlier ∈ usedIds := by
  induction fuel generalizing counter with
  | zero =>
      obtain ⟨free, least, bound, unused⟩ := enough
      obtain rfl : free = counter := by omega
      exact ⟨free, le_rfl, rfl, unused, fun earlier low high => by omega⟩
  | succ fuel inductionHypothesis =>
      rw [numberedRefId]
      by_cases taken : candidate ++ '-' :: Text.ofNat counter ∈ usedIds
      · rw [if_pos taken]
        have later : ∃ counter' ≥ counter + 1, counter' ≤ counter + 1 + fuel ∧
            candidate ++ '-' :: Text.ofNat counter' ∉ usedIds := by
          obtain ⟨free, least, bound, unused⟩ := enough
          have differs : free ≠ counter := fun same => unused (same ▸ taken)
          exact ⟨free, by omega, by omega, unused⟩
        obtain ⟨free, least, result, unused, before⟩ := inductionHypothesis (counter + 1) later
        refine ⟨free, by omega, result, unused, fun earlier low high => ?_⟩
        by_cases same : earlier = counter
        · exact same ▸ taken
        · exact before earlier (by omega) high
      · rw [if_neg taken]
        exact ⟨counter, le_rfl, rfl, taken, fun earlier low high => by omega⟩

theorem numbered_injective (candidate : Text) :
    Function.Injective fun counter => candidate ++ '-' :: Text.ofNat counter := by
  intro first second same
  have numbers := List.append_cancel_left same
  exact Text.ofNat_injective (List.cons.inj numbers).2

theorem exists_numbered_unused (usedIds : List Text) (candidate : Text) (counter : Nat) :
    ∃ counter' ≥ counter, counter' ≤ counter + usedIds.length ∧
      candidate ++ '-' :: Text.ofNat counter' ∉ usedIds := by
  by_contra none_
  simp only [not_exists, not_and, not_not] at none_
  have candidates : (Finset.Icc counter (counter + usedIds.length)).image
      (fun counter => candidate ++ '-' :: Text.ofNat counter) ⊆ usedIds.toFinset := by
    intro id among
    obtain ⟨counter', range, rfl⟩ := Finset.mem_image.mp among
    obtain ⟨low, high⟩ := Finset.mem_Icc.mp range
    exact List.mem_toFinset.mpr (none_ counter' low high)
  have many := Finset.card_le_card candidates
  rw [Finset.card_image_of_injective _ (numbered_injective candidate), Nat.card_Icc] at many
  have few := List.toFinset_card_le usedIds
  omega

/-- The loop over numbered candidates ends at an id that is not used. -/
theorem numberedRefId_unused (usedIds : List Text) (candidate : Text) :
    ∃ counter ≥ 2,
      numberedRefId usedIds candidate usedIds.length 2 = candidate ++ '-' :: Text.ofNat counter ∧
      candidate ++ '-' :: Text.ofNat counter ∉ usedIds ∧
      ∀ earlier ≥ 2, earlier < counter → candidate ++ '-' :: Text.ofNat earlier ∈ usedIds :=
  numberedRefId_first usedIds candidate usedIds.length 2 (exists_numbered_unused usedIds candidate 2)

/-! ## Lists without repetitions -/

def appendNew (listed : List Text) (text : Text) : List Text :=
  if text ∈ listed then listed else listed ++ [text]

theorem foldl_appendNew_replicate (listed : List Text) (text : Text) (count : Nat) :
    (List.replicate count text).foldl appendNew listed =
      if count = 0 then listed else appendNew listed text := by
  induction count generalizing listed with
  | zero => rfl
  | succ count inductionHypothesis =>
      rw [List.replicate_succ, List.foldl_cons, inductionHypothesis, if_neg (Nat.succ_ne_zero count)]
      split
      · rfl
      · have present : text ∈ appendNew listed text := by
          unfold appendNew
          split
          · assumption
          · exact List.mem_append_right _ (List.mem_singleton_self text)
        rw [appendNew, if_pos present]

/-- Texts that come up in one run each are listed once, in order. -/
theorem foldl_appendNew_runs {Item : Type} (text : Item → Text) (count : Item → Nat)
    (items : List Item) (listed : List Text) (distinct : (listed ++ items.map text).Nodup) :
    (items.flatMap fun item => List.replicate (count item) (text item)).foldl appendNew listed =
      listed ++ (items.filter fun item => count item ≠ 0).map text := by
  induction items generalizing listed with
  | nil => simp
  | cons item rest inductionHypothesis =>
      have fresh : text item ∉ listed := by
        rw [List.map_cons, List.nodup_append] at distinct
        exact fun among => distinct.2.2 _ among _ List.mem_cons_self rfl
      rw [List.flatMap_cons, List.foldl_append, foldl_appendNew_replicate]
      by_cases absent : count item = 0
      · have shorter : (listed ++ rest.map text).Nodup :=
          distinct.sublist (List.sublist_append_iff.mpr
            ⟨listed, rest.map text, rfl, List.Sublist.refl _, List.sublist_cons_self _ _⟩)
        rw [if_pos absent, inductionHypothesis listed shorter]
        simp [absent]
      · have longer : ((listed ++ [text item]) ++ rest.map text).Nodup := by
          simpa using distinct
        rw [if_neg absent, appendNew, if_neg fresh, inductionHypothesis _ longer]
        simp [absent]

/-! ## Links of one reference -/

def pagesUnder (key : Text) (linked : List (Text × WikiPage)) : List WikiPage :=
  (linked.filter fun link => link.1 = key).map Prod.snd

structure SourceRef.Links (key : Text) (linked : List (Text × WikiPage)) (ref : SourceRef) :
    Prop where
  paths : ref.linkedPages = ((pagesUnder key linked).map WikiPage.path).foldl appendNew []
  pageIds : ref.linkedPageIds = ((pagesUnder key linked).map WikiPage.id).foldl appendNew []

/-- The references of the keys linked so far. -/
structure SourceRefCollection.Faithful (linked : List (Text × WikiPage))
    (collection : SourceRefCollection) : Prop where
  labels : (collection.ids.idsByLabel.map Prod.fst).Nodup
  keys : ∀ key, key ∈ collection.ids.idsByLabel.map Prod.fst ↔ key ∈ linked.map Prod.fst
  ids : (collection.ids.idsByLabel.map Prod.snd).Nodup
  used : ∀ id, id ∈ collection.ids.usedIds ↔ id ∈ collection.ids.idsByLabel.map Prod.snd
  refs : collection.refs.map Prod.fst = collection.ids.idsByLabel.map Prod.snd
  links : ∀ entry ∈ collection.ids.idsByLabel, ∃ ref,
    Keyed.get? collection.refs entry.2 = some ref ∧ ref.id = entry.2 ∧ ref.Links entry.1 linked

theorem pagesUnder_concat_same (key : Text) (linked : List (Text × WikiPage)) (page : WikiPage) :
    pagesUnder key (linked ++ [(key, page)]) = pagesUnder key linked ++ [page] := by
  simp [pagesUnder]

theorem pagesUnder_concat_other {key label : Text} (differs : label ≠ key)
    (linked : List (Text × WikiPage)) (page : WikiPage) :
    pagesUnder key (linked ++ [(label, page)]) = pagesUnder key linked := by
  simp [pagesUnder, differs]

theorem SourceRef.Links.other {key label : Text} {linked : List (Text × WikiPage)}
    {ref : SourceRef} (links : ref.Links key linked) (differs : label ≠ key) (page : WikiPage) :
    ref.Links key (linked ++ [(label, page)]) := by
  constructor
  · rw [pagesUnder_concat_other differs]
    exact links.paths
  · rw [pagesUnder_concat_other differs]
    exact links.pageIds

/-- Linking a page appends its path and its id where they are new. -/
theorem SourceRef.Links.link {key : Text} {linked : List (Text × WikiPage)} {ref : SourceRef}
    (links : ref.Links key linked) (page : WikiPage) :
    (linkSourceRefPage ref page).Links key (linked ++ [(key, page)]) := by
  constructor
  · rw [pagesUnder_concat_same, List.map_append, List.foldl_append, ← links.paths]
    rfl
  · rw [pagesUnder_concat_same, List.map_append, List.foldl_append, ← links.pageIds]
    rfl

/-- A reference as it is made, before any page is linked. -/
structure SourceRef.New (refId : Text) (ref : SourceRef) : Prop where
  id : ref.id = refId
  paths : ref.linkedPages = []
  pageIds : ref.linkedPageIds = []

theorem SourceRef.New.links {refId key : Text} {linked : List (Text × WikiPage)} {ref : SourceRef}
    (new : ref.New refId) (unlinked : key ∉ linked.map Prod.fst) : ref.Links key linked := by
  have none_ : pagesUnder key linked = [] := by
    refine List.map_eq_nil_iff.mpr (List.filter_eq_nil_iff.mpr fun link among => ?_)
    have differs : link.1 ≠ key := fun same => unlinked (same ▸ List.mem_map_of_mem among)
    simpa using differs
  exact ⟨by rw [none_, new.paths]; rfl, by rw [none_, new.pageIds]; rfl⟩

section References

variable [Unicode] [Hashing]

theorem stableSourceRefId_cases (label : Text) (ids : SourceRefIds) :
    (∃ existing, Keyed.get? ids.idsByLabel label = some existing ∧
        stableSourceRefId label ids = (existing, ids)) ∨
      (Keyed.get? ids.idsByLabel label = none ∧ ∃ candidate ∉ ids.usedIds,
        stableSourceRefId label ids =
          (candidate,
            { idsByLabel := Keyed.set ids.idsByLabel label candidate
              usedIds := candidate :: ids.usedIds })) := by
  unfold stableSourceRefId
  cases Keyed.get? ids.idsByLabel label with
  | some existing => exact .inl ⟨existing, rfl, rfl⟩
  | none =>
      refine .inr ⟨rfl, _, ?_, rfl⟩
      split
      · assumption
      · split
        · assumption
        · obtain ⟨counter, -, result, unused, -⟩ := numberedRefId_unused ids.usedIds
            (Text.lower (slug label) ++ '-' :: (Hashing.sha256 label).take 8)
          rw [result]
          exact unused

theorem SourceRefCollection.Faithful.link {linked : List (Text × WikiPage)}
    {collection : SourceRefCollection} (faithful : collection.Faithful linked) (page : WikiPage)
    (label : Text) {create : Text → SourceRef} (new : ∀ refId, (create refId).New refId) :
    (collection.link page label create).Faithful (linked ++ [(label, page)]) := by
  unfold SourceRefCollection.link
  rcases stableSourceRefId_cases label collection.ids with
    ⟨existing, found, result⟩ | ⟨absent, candidate, unused, result⟩
  · have known := Keyed.mem_of_get? found
    obtain ⟨ref, stored, sameId, links⟩ := faithful.links _ known
    rw [result]
    dsimp only
    rw [stored, Option.getD_some]
    constructor
    · exact faithful.labels
    · intro key
      rw [faithful.keys, List.map_append, List.mem_append, List.map_singleton,
        List.mem_singleton]
      have already := (faithful.keys label).mp (List.mem_map_of_mem known)
      exact ⟨.inl, fun either => either.elim id fun same => same ▸ already⟩
    · exact faithful.ids
    · exact faithful.used
    · rw [Keyed.map_fst_set, if_pos (Keyed.get?_isSome_iff.mp (by rw [stored]; rfl))]
      exact faithful.refs
    · intro entry entryIn
      rw [Keyed.get?_set]
      by_cases same : existing = entry.2
      · have pair : (label, existing) = entry :=
          List.inj_on_of_nodup_map faithful.ids known entryIn same
        subst pair
        exact ⟨linkSourceRefPage ref page, if_pos rfl, sameId, links.link page⟩
      · obtain ⟨other, otherStored, otherId, otherLinks⟩ := faithful.links entry entryIn
        have differs : label ≠ entry.1 := by
          rintro equal
          have pair : (label, existing) = entry :=
            List.inj_on_of_nodup_map faithful.labels known entryIn equal
          exact same (congrArg Prod.snd pair)
        exact ⟨other, by rw [if_neg same, otherStored], otherId, otherLinks.other differs page⟩
  · have fresh : candidate ∉ collection.ids.idsByLabel.map Prod.snd :=
      fun among => unused ((faithful.used candidate).mpr among)
    have unlabelled := Keyed.get?_eq_none_iff.mp absent
    have unstored : Keyed.get? collection.refs candidate = none :=
      Keyed.get?_eq_none_iff.mpr (faithful.refs ▸ fresh)
    have appended : Keyed.set collection.ids.idsByLabel label candidate =
        collection.ids.idsByLabel ++ [(label, candidate)] := by
      rw [Keyed.set, if_neg unlabelled]
    rw [result]
    dsimp only
    rw [unstored, Option.getD_none, appended]
    constructor
    · simpa [List.nodup_append'] using ⟨faithful.labels, by simpa using unlabelled⟩
    · intro key
      simp only [List.map_append, List.mem_append, List.map_singleton, List.mem_singleton,
        faithful.keys]
    · simpa [List.nodup_append'] using ⟨faithful.ids, by simpa using fresh⟩
    · intro id
      rw [List.mem_cons, faithful.used, List.map_append, List.mem_append, List.map_singleton,
        List.mem_singleton]
      exact or_comm
    · rw [Keyed.map_fst_set, if_neg (faithful.refs ▸ fresh), faithful.refs, List.map_append]
      rfl
    · intro entry entryIn
      rw [Keyed.get?_set]
      rcases List.mem_append.mp entryIn with old | last
      · obtain ⟨other, otherStored, otherId, otherLinks⟩ := faithful.links entry old
        have differs : candidate ≠ entry.2 := fun same =>
          fresh (same ▸ List.mem_map_of_mem old)
        have otherLabel : label ≠ entry.1 := fun same =>
          unlabelled (same ▸ List.mem_map_of_mem old)
        exact ⟨other, by rw [if_neg differs, otherStored], otherId,
          otherLinks.other otherLabel page⟩
      · obtain rfl := List.mem_singleton.mp last
        have unlinked : label ∉ linked.map Prod.fst := fun among =>
          unlabelled ((faithful.keys label).mpr among)
        exact ⟨_, if_pos rfl, (new candidate).id, ((new candidate).links unlinked).link page⟩

/-! ## The references of a page list -/

def citedKeys (page : WikiPage) : List Text :=
  projectedOkfSourceRefs page ++
    page.sourceRefs.filter fun label => label ∉ projectedOkfSourceRefs page

/-- The page carries the key as an OKF source or as a label. -/
def WikiPage.Cites (page : WikiPage) (key : Text) : Prop :=
  key ∈ projectedOkfSourceRefs page ∨ key ∈ page.sourceRefs

instance (page : WikiPage) (key : Text) : Decidable (page.Cites key) :=
  inferInstanceAs (Decidable (_ ∨ _))

omit [Unicode] [Hashing] in
theorem mem_citedKeys {page : WikiPage} {key : Text} : key ∈ citedKeys page ↔ page.Cites key := by
  simp only [citedKeys, WikiPage.Cites, List.mem_append, List.mem_filter, decide_eq_true_eq]
  tauto

theorem SourceRefCollection.Faithful.foldl_link {Item : Type} {page : WikiPage}
    {add : SourceRefCollection → Item → SourceRefCollection} {key : Item → Text}
    (adds : ∀ collection item, ∃ create, (∀ refId, (create refId).New refId) ∧
      add collection item = collection.link page (key item) create)
    (items : List Item) {linked : List (Text × WikiPage)} {collection : SourceRefCollection}
    (faithful : collection.Faithful linked) :
    (items.foldl add collection).Faithful (linked ++ items.map fun item => (key item, page)) := by
  induction items generalizing linked collection with
  | nil => simpa using faithful
  | cons item rest inductionHypothesis =>
      obtain ⟨create, new, step⟩ := adds collection item
      have next := inductionHypothesis (faithful.link page (key item) new)
      rw [← step] at next
      simpa using next

variable [Interpreter]

theorem SourceRefCollection.Faithful.addPage {linked : List (Text × WikiPage)}
    {collection : SourceRefCollection} (faithful : collection.Faithful linked) (sourceId : Text)
    (page : WikiPage) :
    (SourceRefCollection.addPage sourceId collection page).Faithful
      (linked ++ (citedKeys page).map fun key => (key, page)) := by
  have label : ∀ (collection : SourceRefCollection) (label : Text), ∃ create,
      (∀ refId, (create refId : SourceRef).New refId) ∧
        SourceRefCollection.addLabel sourceId page collection label =
          collection.link page label create := by
    intro collection label
    refine ⟨_, ?_, rfl⟩
    exact fun refId => ⟨rfl, rfl, rfl⟩
  unfold SourceRefCollection.addPage
  cases found : page.okf with
  | none =>
      have noSources : projectedOkfSourceRefs page = [] := by simp [projectedOkfSourceRefs, found]
      have labelled := faithful.foldl_link label page.sourceRefs
      simpa [citedKeys, noSources] using labelled
  | some okf =>
      have source : ∀ (collection : SourceRefCollection) (source : OkfSource), ∃ create,
          (∀ refId, (create refId : SourceRef).New refId) ∧
            SourceRefCollection.addOkfSource sourceId page okf collection source =
              collection.link page source.refKey create := by
        intro collection source
        refine ⟨_, ?_, rfl⟩
        exact fun refId => ⟨rfl, rfl, rfl⟩
      have keys : projectedOkfSourceRefs page = okf.sources.map OkfSource.refKey := by
        simp [projectedOkfSourceRefs, found]
      have labelled := (faithful.foldl_link source okf.sources).foldl_link label
        (page.sourceRefs.filter fun label => label ∉ projectedOkfSourceRefs page)
      have all : linked ++ (citedKeys page).map (fun key => (key, page)) =
          (linked ++ okf.sources.map fun source => (source.refKey, page)) ++
            (page.sourceRefs.filter fun label => label ∉ projectedOkfSourceRefs page).map
              fun label => (label, page) := by
        simp [citedKeys, keys]
      rw [all]
      exact labelled

def linkedOf (pages : List WikiPage) : List (Text × WikiPage) :=
  pages.flatMap fun page => (citedKeys page).map fun key => (key, page)

theorem SourceRefCollection.Faithful.addPages (sourceId : Text) (pages : List WikiPage)
    {linked : List (Text × WikiPage)} {collection : SourceRefCollection}
    (faithful : collection.Faithful linked) :
    (pages.foldl (SourceRefCollection.addPage sourceId) collection).Faithful
      (linked ++ linkedOf pages) := by
  induction pages generalizing linked collection with
  | nil => simpa [linkedOf] using faithful
  | cons page rest inductionHypothesis =>
      have next := inductionHypothesis (faithful.addPage sourceId page)
      rw [List.append_assoc] at next
      exact next

omit [Unicode] [Hashing] [Interpreter] in
theorem SourceRefCollection.Faithful.start : ({} : SourceRefCollection).Faithful [] where
  labels := List.nodup_nil
  keys := by simp
  ids := List.nodup_nil
  used := by simp
  refs := rfl
  links := by simp

omit [Unicode] [Hashing] [Interpreter] in
theorem pagesUnder_linkedOf (key : Text) (pages : List WikiPage) :
    pagesUnder key (linkedOf pages) =
      pages.flatMap fun page => List.replicate ((citedKeys page).count key) page := by
  induction pages with
  | nil => rfl
  | cons page rest inductionHypothesis =>
      have own : pagesUnder key ((citedKeys page).map fun key => (key, page)) =
          List.replicate ((citedKeys page).count key) page := by
        generalize citedKeys page = keys
        induction keys with
        | nil => rfl
        | cons other keys inductionHypothesis =>
            by_cases same : other = key
            · subst same
              simpa [pagesUnder, List.replicate_succ] using inductionHypothesis
            · simpa [pagesUnder, same] using inductionHypothesis
      rw [List.flatMap_cons, ← inductionHypothesis, ← own]
      simp [pagesUnder, linkedOf]

omit [Unicode] [Hashing] [Interpreter] in
theorem foldl_appendNew_pagesUnder {pages : List WikiPage} {text : WikiPage → Text}
    (distinct : (pages.map text).Nodup) (key : Text) :
    ((pagesUnder key (linkedOf pages)).map text).foldl appendNew [] =
      (pages.filter fun page => page.Cites key).map text := by
  have runs := foldl_appendNew_runs text (fun page => (citedKeys page).count key) pages []
    (by simpa using distinct)
  have filters : (pages.filter fun page => (citedKeys page).count key ≠ 0) =
      pages.filter fun page => page.Cites key := by
    refine List.filter_congr fun page _ => ?_
    simp only [ne_eq, List.count_eq_zero, not_not, mem_citedKeys]
  rw [pagesUnder_linkedOf, List.map_flatMap]
  simp only [List.map_replicate]
  rw [runs, filters, List.nil_append]

omit [Unicode] [Hashing] [Interpreter] in
theorem mem_map_linkedOf {pages : List WikiPage} {key : Text} :
    key ∈ (linkedOf pages).map Prod.fst ↔ ∃ page ∈ pages, page.Cites key := by
  simp only [linkedOf, List.map_flatMap, List.map_map, List.mem_flatMap, Function.comp_def,
    List.map_id', mem_citedKeys]

omit [Unicode] [Hashing] [Interpreter] in
theorem SourceRefCollection.Faithful.sideBySide {linked : List (Text × WikiPage)}
    {collection : SourceRefCollection} (faithful : collection.Faithful linked) :
    List.Forall₂ (fun key (ref : SourceRef) => ref.Links key linked)
      (collection.ids.idsByLabel.map Prod.fst) (collection.refs.map Prod.snd) := by
  have aligned : List.Forall₂ (fun (entry : Text × Text) (stored : Text × SourceRef) =>
      stored.1 = entry.2) collection.ids.idsByLabel collection.refs := by
    have same : List.Forall₂ Eq (collection.ids.idsByLabel.map Prod.snd)
        (collection.refs.map Prod.fst) := by
      rw [faithful.refs]
      exact List.forall₂_refl _
    rw [List.forall₂_map_left_iff, List.forall₂_map_right_iff] at same
    exact same.imp fun _ _ equality => equality.symm
  have members := (List.forall₂_and_left _ _).mpr
    ⟨fun stored (among : stored ∈ collection.refs) => among, aligned.flip⟩
  have entries := (List.forall₂_and_left _ _).mpr
    ⟨fun entry (among : entry ∈ collection.ids.idsByLabel) => among, members.flip⟩
  rw [List.forall₂_map_left_iff, List.forall₂_map_right_iff]
  refine entries.imp ?_
  rintro entry stored ⟨entryIn, storedIn, sameId⟩
  obtain ⟨ref, found, -, links⟩ := faithful.links entry entryIn
  have distinct : (collection.refs.map Prod.fst).Nodup := faithful.refs ▸ faithful.ids
  have own := Keyed.get?_of_mem distinct storedIn
  rw [sameId, found] at own
  exact Option.some.inj own ▸ links

omit [Unicode] [Hashing] [Interpreter] in
/-- The references carry the ids they are stored under. -/
theorem SourceRefCollection.Faithful.map_id {linked : List (Text × WikiPage)}
    {collection : SourceRefCollection} (faithful : collection.Faithful linked) :
    (collection.refs.map Prod.snd).map SourceRef.id = collection.refs.map Prod.fst := by
  rw [List.map_map]
  refine List.map_congr_left fun stored among => ?_
  have distinct : (collection.refs.map Prod.fst).Nodup := faithful.refs ▸ faithful.ids
  have key : stored.1 ∈ collection.ids.idsByLabel.map Prod.snd :=
    faithful.refs ▸ List.mem_map_of_mem among
  obtain ⟨entry, entryIn, same⟩ := List.mem_map.mp key
  obtain ⟨ref, found, sameId, -⟩ := faithful.links entry entryIn
  rw [same, Keyed.get?_of_mem distinct among] at found
  rw [Function.comp_apply, Option.some.inj found, sameId, same]

/-- Collecting ends, the references have ids of their own, and there is one for every key of the
visible pages, which links the pages with the key in page order. -/
theorem sourceRefs_faithful (includeDrafts : Bool) (index : WikiIndex) (manifest : WikiManifest)
    (distinctIds : (index.pages.map WikiPage.id).Nodup)
    (distinctPaths : (index.pages.map WikiPage.path).Nodup) :
    let refs := (sourceRefsResponse includeDrafts index manifest).sourceRefs
    let visible := visiblePages index.pages includeDrafts
    (∀ (usedIds : List Text) (candidate : Text), ∃ counter ≥ 2,
      numberedRefId usedIds candidate usedIds.length 2 = candidate ++ '-' :: Text.ofNat counter ∧
      candidate ++ '-' :: Text.ofNat counter ∉ usedIds ∧
      ∀ earlier ≥ 2, earlier < counter → candidate ++ '-' :: Text.ofNat earlier ∈ usedIds) ∧
    (refs.map SourceRef.id).Nodup ∧
    ∃ keys : List Text, keys.Nodup ∧ (∀ key, key ∈ keys ↔ ∃ page ∈ visible, page.Cites key) ∧
      List.Forall₂ (fun key (ref : SourceRef) =>
        ref.linkedPageIds = (visible.filter fun page => page.Cites key).map WikiPage.id ∧
        ref.linkedPages = (visible.filter fun page => page.Cites key).map WikiPage.path)
        keys refs := by
  intro refs visible
  refine ⟨numberedRefId_unused, ?_⟩
  have sublist : visible.Sublist index.pages := by
    simp only [visible, visiblePages]
    split
    · exact List.Sublist.refl _
    · exact List.filter_sublist
  let collection := visible.foldl (SourceRefCollection.addPage manifest.sourceId) {}
  have faithful : collection.Faithful (linkedOf visible) := by
    simpa using SourceRefCollection.Faithful.start.addPages manifest.sourceId visible
  have sorted : refs.Perm (collection.refs.map Prod.snd) := sortBy_perm _ _
  constructor
  · rw [(sorted.map SourceRef.id).nodup_iff, faithful.map_id, faithful.refs]
    exact faithful.ids
  · have together : Relation.Comp List.Perm (List.Forall₂ fun key (ref : SourceRef) =>
        ref.Links key (linkedOf visible)) (collection.ids.idsByLabel.map Prod.fst) refs := by
      rw [← List.forall₂_comp_perm_eq_perm_comp_forall₂]
      exact ⟨_, faithful.sideBySide, sorted.symm⟩
    obtain ⟨keys, ordered, linked⟩ := together
    refine ⟨keys, ordered.nodup_iff.mp faithful.labels, fun key => ?_, linked.imp ?_⟩
    · rw [← ordered.mem_iff, faithful.keys, mem_map_linkedOf]
    · intro key ref links
      constructor
      · rw [links.pageIds]
        exact foldl_appendNew_pagesUnder (distinctIds.sublist (sublist.map _)) key
      · rw [links.paths]
        exact foldl_appendNew_pagesUnder (distinctPaths.sublist (sublist.map _)) key

end References

section Cited

attribute [local instance] Unicode.ascii Value.plainInterpreter Hashing.transparent

/-- Two labels with one slug, one of them on both pages. -/
def citedIndex : WikiIndex :=
  { sampleIndex with
    pages :=
      [{ id := "a", title := "A", path := "a.md", role := .topic, text := [],
          sourceRefs := ["Raw A", "raw-a"] },
        { id := "b", title := "B", path := "b.md", role := .topic, text := [],
          sourceRefs := ["raw-a"] }] }

theorem sourceRefs_faithful_cited :
    ((sourceRefsResponse true citedIndex
        (manifest {} ⟨none, nofun, nofun⟩ [] citedIndex false)).sourceRefs.map SourceRef.id).Nodup :=
  (sourceRefs_faithful true citedIndex (manifest {} ⟨none, nofun, nofun⟩ [] citedIndex false)
    (by decide) (by decide)).2.1

end Cited

end LlmWikiServe
