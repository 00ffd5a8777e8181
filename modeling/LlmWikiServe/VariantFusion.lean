import LlmWikiServe.RankBands
import LlmWikiServe.SearchResults

/-!
# Fusion of query variants

The fused order of the channels of a query.  The variants after the primary query count alike, in
any order, and the primary query alone gives its own order back.
-/

namespace LlmWikiServe.VariantFusion

open LexicalScan (Scoring)

/-! ## The results of one channel -/

section Channel

theorem nodup_foldl_selectRole {ordered selected : List WikiPage} (roles : List PageRole)
    (distinct : (selected.map WikiPage.path).Nodup) :
    ((roles.foldl (selectRole ordered) selected).map WikiPage.path).Nodup := by
  induction roles generalizing selected with
  | nil => exact distinct
  | cons role rest inductionHypothesis =>
      apply inductionHypothesis
      unfold selectRole
      split
      next => exact distinct
      next page found =>
        have fresh : page.path ∉ selected.map WikiPage.path := by
          have chosen := List.find?_some found
          simp only [decide_eq_true_eq] at chosen
          exact chosen.2
        rw [List.map_append]
        exact List.nodup_append'.mpr
          ⟨distinct, List.nodup_singleton _, List.disjoint_singleton.mpr fresh⟩

theorem nodup_orientationPages {pages : List WikiPage} (distinct : pages.Nodup) :
    (orientationPages pages).Nodup := by
  unfold orientationPages
  refine List.nodup_append'.mpr ⟨.of_map WikiPage.path (nodup_foldl_selectRole _ List.nodup_nil),
    ((sortBy_perm _ _).nodup_iff.mpr distinct).filter _, fun page selected rest => ?_⟩
  have other := (List.mem_filter.mp rest).2
  simp only [decide_eq_true_eq] at other
  exact other (List.mem_map_of_mem selected)

variable [Unicode] {R : Type} [Floats R]

theorem rankedResults_ids (route : Text) (snippetChars : Option Int) (pages : List WikiPage) :
    (rankedResults (R := R) route snippetChars pages).map SearchResult.pageId =
      pages.map WikiPage.id := by
  rw [rankedResults, List.map_map]
  exact (List.map_map (f := Prod.fst) (g := WikiPage.id)).symm.trans
    (congrArg (List.map WikiPage.id) (List.zipIdx_map_fst 0 pages))

theorem nodup_overviewResults {pages : List WikiPage} (distinct : (pages.map WikiPage.id).Nodup)
    (limit : Int) (snippetChars : Option Int) (excludePageIds : List Text) :
    ((overviewResults (R := R) pages limit snippetChars excludePageIds).map
      SearchResult.pageId).Nodup := by
  refine List.Nodup.sublist ((takeLimit_sublist _ _).map _) ?_
  rw [rankedResults_ids]
  refine List.Nodup.map_on (fun first firstIn second secondIn same => ?_)
    ((nodup_orientationPages distinct.of_map).filter _)
  exact List.inj_on_of_nodup_map distinct (mem_orientationPages (List.mem_of_mem_filter firstIn))
    (mem_orientationPages (List.mem_of_mem_filter secondIn)) same

variable [Stemming]

theorem nodup_lexicalSearchCorpus {corpus : SearchCorpus}
    (distinct : (corpus.pages.map WikiPage.id).Nodup) (query : Text) (options : SearchOptions R) :
    ((lexicalSearchCorpus corpus query options).map SearchResult.pageId).Nodup := by
  simp only [lexicalSearchCorpus]
  split_ifs
  · exact nodup_overviewResults distinct _ _ _
  · exact List.nodup_nil
  · exact List.nodup_nil
  · refine List.Nodup.sublist ((takeLimit_sublist _ _).map _) ?_
    rw [((rankSearchResults_perm _ _).map _).nodup_iff]
    refine List.Nodup.sublist (@Keyed.filterMap_keys _ _ _ _ _ (fun entry => entry.1.page.id) _ ?_) ?_
    · rintro ⟨document, index⟩ result selected
      obtain ⟨textScore, -, selected⟩ := Option.bind_eq_some_iff.mp selected
      split_ifs at selected
      exact (Option.some.inj selected) ▸ rfl
    · have ids : (corpus.documents.zipIdx.map fun entry => entry.1.page.id) =
          corpus.pages.map WikiPage.id := by
        rw [SearchCorpus.pages, List.map_map]
        exact (List.map_map (f := Prod.fst) (g := WikiPage.id ∘ SearchDocument.page)).symm.trans
          (congrArg _ (List.zipIdx_map_fst 0 corpus.documents))
      exact ids ▸ distinct

omit [Unicode] [Floats R] [Stemming] in
theorem takeLimit_of_le {α : Type} {limit : Int} (limited : 0 ≤ limit) {values : List α}
    (short : values.length ≤ limit.toNat) : takeLimit limit values = values := by
  rw [takeLimit, if_pos limited, List.take_of_length_le short]

omit [Unicode] [Floats R] [Stemming] in
theorem length_takeLimit_le {α : Type} {limit : Int} (limited : 0 ≤ limit) (values : List α) :
    (takeLimit limit values).length ≤ limit.toNat := by
  rw [takeLimit, if_pos limited]
  exact List.length_take_le _ _

theorem length_lexicalSearchCorpus_le (corpus : SearchCorpus) (query : Text)
    {options : SearchOptions R} (limited : 0 ≤ options.limit) :
    (lexicalSearchCorpus corpus query options).length ≤ options.limit.toNat := by
  simp only [lexicalSearchCorpus]
  split_ifs
  · exact length_takeLimit_le limited _
  · exact Nat.zero_le _
  · exact Nat.zero_le _
  · exact length_takeLimit_le limited _

/-! ### The pages a query of one compound asks for -/

omit [Unicode] [Stemming] in
theorem mem_foldl_addScore {amount : Nat × Nat → R} {postings : List (Nat × Nat)}
    {scores : List (Nat × R)} {docIndex : Nat}
    (among : docIndex ∈ (postings.foldl (fun scores entry =>
      addScore scores entry.1 (amount entry)) scores).map Prod.fst) :
    docIndex ∈ scores.map Prod.fst ∨ docIndex ∈ postings.map Prod.fst := by
  induction postings generalizing scores with
  | nil => exact Or.inl among
  | cons entry rest inductionHypothesis =>
      rcases inductionHypothesis among with earlier | later
      · rcases Keyed.mem_map_fst_set.mp earlier with rfl | old
        · exact Or.inr List.mem_cons_self
        · exact Or.inl old
      · exact Or.inr (List.mem_cons_of_mem _ later)

omit [Stemming] in
/-- Only documents asked for have a score. -/
theorem candidateScores_required {corpus : SearchCorpus} {query : Text} {tokens : List Text}
    {docIndex : Nat}
    (scored : docIndex ∈ (candidateScores (R := R) corpus query tokens).map Prod.fst) :
    isRequired (exactRequiredDocIndexes corpus
      (singleExactCompoundQueryToken corpus.analyzerProfile query)) docIndex = true := by
  let required := exactRequiredDocIndexes corpus
    (singleExactCompoundQueryToken corpus.analyzerProfile query)
  let Asked := fun scores : List (Nat × R) =>
    ∀ docIndex ∈ scores.map Prod.fst, isRequired required docIndex = true
  have turn : ∀ (amount : Nat × Nat → R) (postings : List (Nat × Nat)) (scores : List (Nat × R)),
      Asked scores → Asked ((postings.filter fun entry => isRequired required entry.1).foldl
        (fun scores entry => addScore scores entry.1 (amount entry)) scores) := by
    intro amount postings scores asked docIndex among
    rcases mem_foldl_addScore among with old | new
    · exact asked docIndex old
    · obtain ⟨entry, entryIn, rfl⟩ := List.mem_map.mp new
      exact (List.mem_filter.mp entryIn).2
  have lexical : Asked (tokens.foldl (addTokenScores corpus required) []) :=
    List.foldlRecOn tokens _ (by simp [Asked]) fun scores asked token _ => turn _ _ scores asked
  have all : Asked (candidateScores corpus query tokens) := by
    unfold candidateScores
    refine List.foldlRecOn _ _ ?_ fun scores asked token _ => turn _ _ scores asked
    split
    · exact lexical
    · exact turn _ _ _ lexical
  exact all docIndex scored

omit [Stemming] in
theorem exactCompoundSpansFrom_eq_nil {text : Text} (plain : ∀ char ∈ text, isAsciiAlnum char = false)
    (fuel index : Nat) : exactCompoundSpansFrom text fuel index = [] := by
  induction fuel generalizing index with
  | zero => rfl
  | succ fuel inductionHypothesis =>
      have outside : charAt isAsciiAlnum text index = false := by
        unfold charAt
        cases found : text[index]? with
        | none => rfl
        | some char => exact plain char (List.mem_of_getElem? found)
      simp [exactCompoundSpansFrom, outside, inductionHypothesis]

omit [Unicode] [Stemming] in
theorem isAsciiAlnum_of_isSpace {char : Char} (blank : Text.isSpace char = true) :
    isAsciiAlnum char = false := by
  simp only [Text.isSpace, Bool.or_eq_true, Bool.and_eq_true, decide_eq_true_eq,
    Char.toNat] at blank
  simp only [isAsciiAlnum, Pattern.isLetter, Pattern.isAsciiDigit, Bool.or_eq_false_iff,
    Bool.and_eq_false_iff, decide_eq_false_iff_not, Char.le_def, UInt32.le_iff_toNat_le,
    Char.reduceVal, UInt32.reduceToNat]
  omega

omit [Stemming] in
theorem singleExactCompoundQueryToken_overview {profile : AnalyzerProfile} {query : Text}
    (overview : lexicalEmptyQueryUsesOverview profile query = true) :
    singleExactCompoundQueryToken profile query = [] := by
  cases profile with
  | legacy => rfl
  | english =>
      have blank : Text.strip query = [] := by
        simpa [lexicalEmptyQueryUsesOverview] using overview
      have plain : ∀ char ∈ query, isAsciiAlnum char = false := by
        intro char charIn
        apply isAsciiAlnum_of_isSpace
        by_contra visible
        have kept := Text.mem_stripBy charIn (Bool.not_eq_true _ ▸ visible)
        rw [← Text.strip, blank] at kept
        exact absurd kept List.not_mem_nil
      simp [singleExactCompoundQueryToken, exactCompoundTokenSpans,
        exactCompoundSpansFrom_eq_nil plain]

theorem mem_exactRequiredPageIds {corpus : SearchCorpus} {query : Text} {options : SearchOptions R}
    {result : SearchResult R} (among : result ∈ lexicalSearchCorpus corpus query options)
    {pageIds : List Text} (asked : exactRequiredPageIdsForQuery corpus query = some pageIds) :
    result.pageId ∈ pageIds := by
  obtain ⟨indexes, required, rfl⟩ := Option.map_eq_some_iff.mp asked
  simp only [lexicalSearchCorpus] at among
  split_ifs at among with blank overview unmatched
  · rw [singleExactCompoundQueryToken_overview overview] at required
    simp [exactRequiredDocIndexes] at required
  · exact absurd among List.not_mem_nil
  · exact absurd among List.not_mem_nil
  · have ranked := mem_rankSearchResults.mp (mem_of_mem_takeLimit among)
    obtain ⟨⟨document, index⟩, entryIn, selected⟩ := List.mem_filterMap.mp ranked
    obtain ⟨textScore, scored, selected⟩ := Option.bind_eq_some_iff.mp selected
    split_ifs at selected
    obtain rfl := Option.some.inj selected
    have wanted := candidateScores_required (List.mem_map_of_mem (Keyed.mem_of_get? scored))
    rw [required] at wanted
    refine List.mem_filterMap.mpr ⟨index, by simpa [isRequired] using wanted, ?_⟩
    have here := List.mem_zipIdx_iff_getElem?.mp entryIn
    simp only at here
    simp [SearchCorpus.pages, here, toResult]

theorem nodup_fusedLexicalVariantResults (corpus : SearchCorpus) (channels : List Text)
    (options : SearchOptions R) :
    ((fusedLexicalVariantResults corpus channels options).map SearchResult.pageId).Nodup := by
  have counted : FusedFrom (fun _ => True) (fusedChannels corpus channels options) :=
    fusedChannels_from fun _ _ _ _ => trivial
  have filed : (((fusedChannels corpus channels options).map Prod.snd).map fun fused =>
      fused.exemplar.pageId) = (fusedChannels corpus channels options).map Prod.fst := by
    rw [List.map_map]
    exact List.map_congr_left fun kept keptIn => (counted.filed kept keptIn).symm
  rw [fusedLexicalVariantResults_eq, List.map_map]
  refine List.Nodup.sublist ((takeLimit_sublist _ _).map _) ?_
  refine ((sortBy_perm _ _).map _).nodup_iff.mpr ?_
  exact filed ▸ counted.distinct

end Channel

noncomputable section

/-! ## Counting ranks -/

/-- What the ranks of a page in the channels add up to. -/
structure Tally where
  score : ℝ
  primaryRank : Option Nat
  bestRank : Nat

def share (rank : Nat) : ℝ := 1 / (60 + rank)

def Tally.count (primary : Bool) (known : Option Tally) (rank : Nat) : Option Tally :=
  some
    { score := (known.map Tally.score).getD 0 + share rank
      primaryRank := if primary then some rank else known.bind Tally.primaryRank
      bestRank := min ((known.map Tally.bestRank).getD rank) rank }

/-- Ranks of variants count in any order. -/
theorem Tally.count_comm (known : Option Tally) (first second : Nat) :
    Tally.count false (Tally.count false known first) second =
      Tally.count false (Tally.count false known second) first := by
  cases known with
  | none => simp [Tally.count, add_comm, min_comm]
  | some known => simp [Tally.count, add_right_comm, min_assoc, min_comm second]

def ranksOf {R : Type} (pageId : Text) (entries : List (SearchResult R × Nat)) : List Nat :=
  (entries.filter fun entry => entry.1.pageId = pageId).map Prod.snd

section Fusion

variable [Scoring]

def tally (fused : FusedResult ℝ) : Tally := ⟨fused.score, fused.primaryRank, fused.bestRank⟩

def tallyOf (fused : List (Text × FusedResult ℝ)) (pageId : Text) : Option Tally :=
  (Keyed.get? fused pageId).map tally

theorem tallyOf_fuseResult (primary : Bool) (fused : List (Text × FusedResult ℝ))
    (entry : SearchResult ℝ × Nat) (pageId : Text) :
    tallyOf (fuseResult primary fused entry) pageId =
      if entry.1.pageId = pageId then Tally.count primary (tallyOf fused pageId) entry.2
      else tallyOf fused pageId := by
  unfold tallyOf fuseResult
  rw [Keyed.get?_set]
  split
  next same =>
    subst same
    cases Keyed.get? fused entry.1.pageId <;>
      simp [tally, Tally.count, share, Floats.add, Floats.div, Floats.ofRat, lexicalVariantRrfK]
  next => rfl

theorem tallyOf_foldl_fuseResult (primary : Bool) (entries : List (SearchResult ℝ × Nat))
    (fused : List (Text × FusedResult ℝ)) (pageId : Text) :
    tallyOf (entries.foldl (fuseResult primary) fused) pageId =
      (ranksOf pageId entries).foldl (Tally.count primary) (tallyOf fused pageId) := by
  induction entries generalizing fused with
  | nil => rfl
  | cons entry rest inductionHypothesis =>
      rw [List.foldl_cons, inductionHypothesis, tallyOf_fuseResult]
      by_cases same : entry.1.pageId = pageId <;> simp [ranksOf, same]

theorem tallyOf_perm {entries others : List (SearchResult ℝ × Nat)} (same : entries.Perm others)
    (fused : List (Text × FusedResult ℝ)) (pageId : Text) :
    tallyOf (entries.foldl (fuseResult false) fused) pageId =
      tallyOf (others.foldl (fuseResult false) fused) pageId := by
  rw [tallyOf_foldl_fuseResult, tallyOf_foldl_fuseResult]
  exact ((same.filter _).map Prod.snd).foldl_eq'
    (fun first _ second _ known => Tally.count_comm known first second) _

/-! ## The fused order -/

/-- `(-score, primary_rank, best_rank, role_rank, path)` -/
def fusedKey (fused : FusedResult ℝ) : ℝ ×ₗ ℕ ×ₗ ℕ ×ₗ ℕ ×ₗ Text :=
  toLex (-fused.score, toLex (fused.primaryRank.getD 1000000, toLex (fused.bestRank,
    toLex (roleRank fused.exemplar.role, fused.exemplar.path))))

theorem fusedLe_iff (first second : FusedResult ℝ) :
    fusedLe first second = true ↔ fusedKey first ≤ fusedKey second := by
  simp only [fusedLe, Floats.lt, fusedKey, Prod.Lex.toLex_le_toLex, neg_lt_neg_iff, neg_inj,
    decide_eq_true_eq, List.cons.injEq, and_true]
  split_ifs with above below same
  · simp [above]
  · simp [below.not_gt, below.ne]
  · obtain ⟨primaryRanks, bestRanks, roles⟩ := same
    have scores : first.score = second.score := le_antisymm (not_lt.mp above) (not_lt.mp below)
    simp [scores, primaryRanks, bestRanks, roles]
  · have scores : first.score = second.score := le_antisymm (not_lt.mp above) (not_lt.mp below)
    simp only [scores, lt_irrefl, false_or, true_and, decide_eq_true_eq]
    -- The ranks differ, so they decide.
    rw [← not_lt, List.cons_lt_cons_iff, List.cons_lt_cons_iff, List.cons_lt_cons_iff]
    simp only [List.not_lt_nil, and_false, or_false]
    omega

def place (fused : FusedResult ℝ) : Text × (ℝ ×ₗ ℕ ×ₗ ℕ ×ₗ ℕ ×ₗ Text) :=
  (fused.exemplar.pageId, fusedKey fused)

def Tally.key (tally : Tally) (page : WikiPage) : ℝ ×ₗ ℕ ×ₗ ℕ ×ₗ ℕ ×ₗ Text :=
  toLex (-tally.score, toLex (tally.primaryRank.getD 1000000, toLex (tally.bestRank,
    toLex (roleRank page.role, page.path))))

omit [Scoring] in
/-- A result has the id, the path and the role of one of some pages. -/
def OfPages (pages : List WikiPage) (result : SearchResult ℝ) : Prop :=
  ∃ page ∈ pages, result.pageId = page.id ∧ result.path = page.path ∧ result.role = page.role

section Places

variable {pages : List WikiPage} (distinct : (pages.map WikiPage.id).Nodup)
  {fused others : List (Text × FusedResult ℝ)} (counted : FusedFrom (OfPages pages) fused)
  (otherCounted : FusedFrom (OfPages pages) others)

include distinct counted

omit [Scoring] in
theorem mem_places {held : Text × (ℝ ×ₗ ℕ ×ₗ ℕ ×ₗ ℕ ×ₗ Text)} :
    held ∈ (fused.map Prod.snd).map place ↔
      ∃ page ∈ pages, page.id = held.1 ∧
        ∃ tally, tallyOf fused held.1 = some tally ∧ tally.key page = held.2 := by
  rw [List.map_map, List.mem_map]
  constructor
  · rintro ⟨kept, keptIn, rfl⟩
    obtain ⟨page, pageIn, sameId, samePath, sameRole⟩ := counted.holds kept keptIn
    refine ⟨page, pageIn, sameId.symm, tally kept.2, ?_, ?_⟩
    · rw [tallyOf]
      have found := Keyed.get?_of_mem counted.distinct keptIn
      rw [counted.filed kept keptIn] at found
      simp [place, found]
    · simp [Tally.key, tally, place, fusedKey, samePath, sameRole]
  · rintro ⟨page, pageIn, sameId, tally, known, sameKey⟩
    obtain ⟨result, found, rfl⟩ := Option.map_eq_some_iff.mp known
    have keptIn := Keyed.mem_of_get? found
    refine ⟨(held.1, result), keptIn, Prod.ext (counted.filed _ keptIn).symm ?_⟩
    obtain ⟨owner, ownerIn, ownerId, ownerPath, ownerRole⟩ := counted.holds _ keptIn
    have same : owner = page := List.inj_on_of_nodup_map distinct ownerIn pageIn
      (ownerId.symm.trans ((counted.filed _ keptIn).symm.trans sameId.symm))
    subst same
    rw [← sameKey]
    simp only at ownerPath ownerRole
    simp [Tally.key, VariantFusion.tally, place, fusedKey, ownerPath, ownerRole]

omit distinct [Scoring] in
theorem nodup_places : ((fused.map Prod.snd).map place).Nodup := by
  refine List.Nodup.of_map Prod.fst ?_
  rw [List.map_map, List.map_map]
  refine (List.map_congr_left fun kept keptIn => ?_) ▸ counted.distinct
  exact (counted.filed kept keptIn)

include otherCounted

/-- Equal tallies give one fused order. -/
theorem sortBy_places (paths : (pages.map WikiPage.path).Nodup)
    (same : ∀ pageId, tallyOf fused pageId = tallyOf others pageId) :
    (sortBy fusedLe (fused.map Prod.snd)).map place =
      (sortBy fusedLe (others.map Prod.snd)).map place := by
  have places : ((fused.map Prod.snd).map place).Perm ((others.map Prod.snd).map place) := by
    rw [List.perm_ext_iff_of_nodup (nodup_places counted) (nodup_places otherCounted)]
    intro held
    rw [mem_places distinct counted, mem_places distinct otherCounted, same]
  have sorted : ∀ fused : List (FusedResult ℝ),
      ((sortBy fusedLe fused).map place).Pairwise fun first second => first.2 ≤ second.2 := by
    intro fused
    rw [List.pairwise_map]
    exact sortBy_pairwise fun first _ second _ => fusedLe_iff first second
  refine List.Perm.eq_of_pairwise ?_ (sorted _) (sorted _)
    (((sortBy_perm _ _).map place).trans (places.trans ((sortBy_perm _ _).map place).symm))
  -- Equal keys have equal paths, and no two pages have one path.
  intro first second firstIn secondIn le ge
  have key : first.2 = second.2 := le_antisymm le ge
  rw [((sortBy_perm _ _).map place).mem_iff] at firstIn secondIn
  obtain ⟨page, pageIn, firstId, _, -, firstKey⟩ := (mem_places distinct counted).mp firstIn
  obtain ⟨other, otherIn, secondId, _, -, secondKey⟩ :=
    (mem_places distinct otherCounted).mp secondIn
  have samePath : page.path = other.path := by
    have keys := firstKey.trans (key.trans secondKey.symm)
    simp only [Tally.key, toLex_inj, Prod.mk.injEq] at keys
    exact keys.2.2.2.2
  have samePage := List.inj_on_of_nodup_map paths pageIn otherIn samePath
  exact Prod.ext (firstId.symm.trans ((congrArg WikiPage.id samePage).trans secondId)) key

end Places

variable [Unicode] [Stemming]

/-- The entries of the variants follow those of the primary query. -/
theorem fusedChannels_cons (corpus : SearchCorpus) (primary : Text) (variants : List Text)
    (options : SearchOptions ℝ) :
    fusedChannels corpus (primary :: variants) options =
      let ranked := rankedChannelResults corpus (exactRequiredPageIdsForQuery corpus primary) options
      (variants.flatMap ranked).foldl (fuseResult false)
        ((ranked primary).foldl (fuseResult true) []) := by
  have later : ∀ (start : Nat) (fused : List (Text × FusedResult ℝ)),
      (variants.zipIdx (start + 1)).foldl (fun fused channel =>
        (rankedChannelResults corpus (exactRequiredPageIdsForQuery corpus primary) options
          channel.1).foldl (fuseResult (channel.2 = 0)) fused) fused =
      variants.foldl (fun fused channel =>
        (rankedChannelResults corpus (exactRequiredPageIdsForQuery corpus primary) options
          channel).foldl (fuseResult false) fused) fused := by
    induction variants with
    | nil => exact fun _ _ => rfl
    | cons variant rest inductionHypothesis =>
        intro start fused
        rw [List.zipIdx_cons, List.foldl_cons, List.foldl_cons, inductionHypothesis]
        simp
  simp only [List.foldl_flatMap]
  exact later 0 _

theorem fusedChannels_ofPages (corpus : SearchCorpus) (channels : List Text)
    (options : SearchOptions ℝ) :
    FusedFrom (OfPages corpus.pages) (fusedChannels corpus channels options) := by
  refine fusedChannels_from fun channel _ entry entryIn => ?_
  obtain ⟨page, pageIn, -, score, route, shown⟩ :=
    lexicalSearchCorpus_shown (mem_rankedChannelResults entryIn).1
  rw [shown]
  exact ⟨page, pageIn, rfl, rfl, rfl⟩

/-! ## Permuted variants -/

/-- What the fused results show of a place. -/
def shownPlace (held : Text × (ℝ ×ₗ ℕ ×ₗ ℕ ×ₗ ℕ ×ₗ Text)) : Text × ℝ :=
  (held.1, Scoring.round 6 (-(ofLex held.2).1))

theorem fusedLexicalVariantResults_places (corpus : SearchCorpus) (channels : List Text)
    (options : SearchOptions ℝ) :
    (fusedLexicalVariantResults corpus channels options).map
        (fun result => (result.pageId, result.score)) =
      (takeLimit options.limit ((sortBy fusedLe
        ((fusedChannels corpus channels options).map Prod.snd)).map place)).map shownPlace := by
  rw [fusedLexicalVariantResults_eq, takeLimit_map, List.map_map, List.map_map]
  refine List.map_congr_left fun fused _ => ?_
  simp [shownPlace, place, fusedKey, Floats.round]

theorem fusedLexicalVariantResults_perm {corpus : SearchCorpus}
    (ids : (corpus.pages.map WikiPage.id).Nodup) (paths : (corpus.pages.map WikiPage.path).Nodup)
    (primary : Text) {variants others : List Text} (same : variants.Perm others)
    (options : SearchOptions ℝ) :
    (fusedLexicalVariantResults corpus (primary :: variants) options).map
        (fun result => (result.pageId, result.score)) =
      (fusedLexicalVariantResults corpus (primary :: others) options).map
        fun result => (result.pageId, result.score) := by
  have tallies : ∀ pageId,
      tallyOf (fusedChannels corpus (primary :: variants) options) pageId =
        tallyOf (fusedChannels corpus (primary :: others) options) pageId := by
    intro pageId
    rw [fusedChannels_cons, fusedChannels_cons]
    exact tallyOf_perm (same.flatMap_right _) _ pageId
  rw [fusedLexicalVariantResults_places, fusedLexicalVariantResults_places,
    sortBy_places ids (fusedChannels_ofPages _ _ _) (fusedChannels_ofPages _ _ _) paths tallies]

/-! ## The primary query alone -/

/-- What is known of a page of the primary query alone. -/
def lone (entry : SearchResult ℝ × Nat) : FusedResult ℝ where
  score := share entry.2
  exemplar := entry.1
  primaryRank := some entry.2
  bestRank := entry.2

omit [Unicode] [Stemming] in
theorem foldl_fuseResult_fresh (entries : List (SearchResult ℝ × Nat))
    (fused : List (Text × FusedResult ℝ))
    (fresh : (fused.map Prod.fst ++ entries.map fun entry => entry.1.pageId).Nodup) :
    entries.foldl (fuseResult true) fused =
      fused ++ entries.map fun entry => (entry.1.pageId, lone entry) := by
  induction entries generalizing fused with
  | nil => simp
  | cons entry rest inductionHypothesis =>
      have absent : entry.1.pageId ∉ fused.map Prod.fst := by
        intro present
        exact (List.nodup_append'.mp fresh).2.2 present List.mem_cons_self
      have counted : fuseResult true fused entry =
          fused ++ [(entry.1.pageId, lone entry)] := by
        dsimp only [fuseResult, Keyed.set]
        rw [if_neg absent, Keyed.get?_eq_none_iff.mpr absent]
        simp [lone, share, Floats.add, Floats.div, Floats.ofRat, lexicalVariantRrfK]
      rw [List.foldl_cons, counted, inductionHypothesis]
      · simp
      · simpa using fresh

omit [Unicode] [Stemming] in
theorem fusedLe_lone {first second : SearchResult ℝ × Nat} (before : first.2 < second.2) :
    fusedLe (lone first) (lone second) = true := by
  have above : (lone second).score < (lone first).score := by
    have ranks : (first.2 : ℝ) < second.2 := by exact_mod_cast before
    have positive : (0 : ℝ) ≤ first.2 := Nat.cast_nonneg _
    exact one_div_lt_one_div_of_lt (by linarith) (by linarith)
  simp [fusedLe, Floats.lt, above]

theorem rankedChannelResults_primary (corpus : SearchCorpus) (primary : Text)
    (options : SearchOptions ℝ) :
    rankedChannelResults corpus (exactRequiredPageIdsForQuery corpus primary) options primary =
      (searchCorpus corpus .lexical primary options).zipIdx 1 := by
  refine List.filter_eq_self.mpr fun entry entryIn => ?_
  have among : entry.1 ∈ lexicalSearchCorpus corpus primary options :=
    List.fst_mem_of_mem_zipIdx entryIn
  cases asked : exactRequiredPageIdsForQuery corpus primary with
  | none => rfl
  | some pageIds => simpa using mem_exactRequiredPageIds among asked

theorem fusedLexicalVariantResults_lone {corpus : SearchCorpus}
    (ids : (corpus.pages.map WikiPage.id).Nodup) (primary : Text) (options : SearchOptions ℝ) :
    (fusedLexicalVariantResults corpus [primary] options).map SearchResult.pageId =
      takeLimit options.limit
        ((searchCorpus corpus .lexical primary options).map SearchResult.pageId) := by
  let results := searchCorpus corpus .lexical primary options
  have resultIds : ((results.zipIdx 1).map fun entry => entry.1.pageId) =
      results.map SearchResult.pageId :=
    (List.map_map (f := Prod.fst) (g := SearchResult.pageId)).symm.trans
      (congrArg _ (List.zipIdx_map_fst 1 results))
  have counted : (fusedChannels corpus [primary] options).map Prod.snd =
      (results.zipIdx 1).map lone := by
    rw [fusedChannels_cons]
    simp only [List.flatMap_nil, List.foldl_nil, rankedChannelResults_primary]
    have fresh : ((results.zipIdx 1).map fun entry => entry.1.pageId).Nodup :=
      resultIds ▸ nodup_lexicalSearchCorpus ids primary options
    rw [foldl_fuseResult_fresh _ [] fresh]
    simp
  have ordered : ((results.zipIdx 1).map lone).Pairwise fun first second =>
      fusedLe first second = true := by
    have ranks : (results.zipIdx 1).Pairwise fun first second => first.2 < second.2 := by
      refine List.pairwise_map.mp ?_
      rw [List.zipIdx_map_snd]
      exact List.pairwise_lt_range'
    exact List.pairwise_map.mpr (ranks.imp fusedLe_lone)
  have sorted : sortBy fusedLe ((results.zipIdx 1).map lone) = (results.zipIdx 1).map lone :=
    ordered.insertionSort_eq
  rw [fusedLexicalVariantResults_eq, counted, sorted, List.map_map, ← takeLimit_map, List.map_map]
  exact congrArg (takeLimit options.limit) resultIds

/-- Permuted variants give the same pages with the same scores, no page comes twice, and the
primary query alone gives its own order. -/
theorem fusedLexicalVariantResults_symmetric {corpus : SearchCorpus}
    (ids : (corpus.pages.map WikiPage.id).Nodup) (paths : (corpus.pages.map WikiPage.path).Nodup)
    (primary : Text) (options : SearchOptions ℝ) :
    (∀ variants others : List Text, variants.Perm others →
      (fusedLexicalVariantResults corpus (primary :: variants) options).map
          (fun result => (result.pageId, result.score)) =
        (fusedLexicalVariantResults corpus (primary :: others) options).map
          fun result => (result.pageId, result.score)) ∧
    (∀ variants : List Text,
      ((fusedLexicalVariantResults corpus (primary :: variants) options).map
        SearchResult.pageId).Nodup) ∧
    (fusedLexicalVariantResults corpus [primary] options).map SearchResult.pageId =
      takeLimit options.limit
        ((searchCorpus corpus .lexical primary options).map SearchResult.pageId) ∧
    (0 ≤ options.limit →
      (fusedLexicalVariantResults corpus [primary] options).map SearchResult.pageId =
        (searchCorpus corpus .lexical primary options).map SearchResult.pageId) := by
  refine ⟨fun variants others same => fusedLexicalVariantResults_perm ids paths primary same options,
    fun variants => nodup_fusedLexicalVariantResults corpus _ options,
    fusedLexicalVariantResults_lone ids primary options, fun limited => ?_⟩
  rw [fusedLexicalVariantResults_lone ids primary options]
  exact takeLimit_of_le limited ((List.length_map _).trans_le
    (length_lexicalSearchCorpus_le corpus primary limited))

end Fusion

section Sample

attribute [local instance] Unicode.ascii Stemming.identity RankBands.sampleScoring

/-- Two pages on two subjects. -/
def sampleCorpus : SearchCorpus :=
  buildSearchCorpus .english
    [{ id := "a", title := "Alpha", path := "a.md", role := .topic, text := "alpha beta" },
      { id := "b", title := "Beta", path := "b.md", role := .topic, text := "beta gamma" }]

theorem fusedLexicalVariantResults_symmetric_two :
    (fusedLexicalVariantResults (R := ℝ) sampleCorpus ["alpha", "beta", "gamma"] {}).map
        (fun result => (result.pageId, result.score)) =
      (fusedLexicalVariantResults (R := ℝ) sampleCorpus ["alpha", "gamma", "beta"] {}).map
        fun result => (result.pageId, result.score) :=
  (fusedLexicalVariantResults_symmetric (by decide +kernel) (by decide +kernel) "alpha" {}).1
    ["beta", "gamma"] ["gamma", "beta"] (List.Perm.swap _ _ _)

end Sample

end

/-! ## Limits -/

section Limits

variable [Unicode] [Stemming] {R : Type} [Floats R]

omit [Unicode] [Stemming] [Floats R] in
theorem takeLimit_take {α : Type} {smaller larger : Int} (limited : 0 ≤ smaller)
    (ordered : smaller ≤ larger) (values : List α) :
    takeLimit smaller values = (takeLimit larger values).take smaller.toNat := by
  rw [takeLimit, takeLimit, if_pos limited, if_pos (limited.trans ordered), List.take_take,
    Nat.min_eq_left (Int.toNat_le_toNat ordered)]

/-- The results of one channel are stable under the limit. -/
theorem lexicalSearchCorpus_take (corpus : SearchCorpus) (query : Text) (options : SearchOptions R)
    {smaller larger : Int} (limited : 0 ≤ smaller) (ordered : smaller ≤ larger) :
    lexicalSearchCorpus corpus query { options with limit := smaller } =
      (lexicalSearchCorpus corpus query { options with limit := larger }).take smaller.toNat := by
  simp only [lexicalSearchCorpus]
  split_ifs
  · exact takeLimit_take limited ordered _
  · exact List.take_nil.symm
  · exact List.take_nil.symm
  · exact takeLimit_take limited ordered _

theorem fusedChannels_congr {corpus : SearchCorpus} {channels : List Text}
    {options others : SearchOptions R}
    (same : ∀ channel ∈ channels, searchCorpus corpus .lexical channel options =
      searchCorpus corpus .lexical channel others) :
    fusedChannels corpus channels options = fusedChannels corpus channels others := by
  unfold fusedChannels
  refine List.foldl_ext _ _ _ fun fused channel channelIn => ?_
  rw [rankedChannelResults, same channel.1 (List.fst_mem_of_mem_zipIdx channelIn),
    ← rankedChannelResults]

/-- Where no channel is cut, a smaller limit gives the first of the fused results. -/
theorem fusedLexicalVariantResults_take {corpus : SearchCorpus} {channels : List Text}
    {options : SearchOptions R} {smaller larger : Int} (limited : 0 ≤ smaller)
    (ordered : smaller ≤ larger)
    (uncut : ∀ channel ∈ channels,
      (searchCorpus corpus .lexical channel { options with limit := larger }).length ≤
        smaller.toNat) :
    (fusedLexicalVariantResults corpus channels { options with limit := smaller }).map
        SearchResult.pageId =
      ((fusedLexicalVariantResults corpus channels { options with limit := larger }).map
        SearchResult.pageId).take smaller.toNat := by
  have counted : fusedChannels corpus channels { options with limit := smaller } =
      fusedChannels corpus channels { options with limit := larger } := by
    refine fusedChannels_congr fun channel channelIn => ?_
    exact (lexicalSearchCorpus_take corpus channel options limited ordered).trans
      (List.take_of_length_le (uncut channel channelIn))
  rw [fusedLexicalVariantResults_eq, fusedLexicalVariantResults_eq, counted, ← List.map_take,
    ← List.map_take, takeLimit_take limited ordered]

end Limits

section CutChannels

/-- Exact arithmetic with the first terms of the series of the logarithm. -/
@[reducible]
def seriesFloats : Floats ℚ :=
  let log := fun number : ℚ =>
    let term := (number - 1) / (number + 1)
    2 * (term + term ^ 3 / 3 + term ^ 5 / 5)
  { Floats.rational with log := log, log1p := fun number => log (1 + number) }

attribute [local instance] Unicode.ascii Stemming.identity seriesFloats

/-- Two pages on a subject each and one on both. -/
def sharedCorpus : SearchCorpus :=
  buildSearchCorpus .english
    [{ id := "x", title := "Page", path := "a.md", role := .topic, text := "alpha gamma" },
      { id := "y", title := "Page", path := "b.md", role := .topic, text := "beta gamma" },
      { id := "z", title := "Page", path := "c.md", role := .topic, text := "alpha beta" }]

theorem fusedLexicalVariantResults_take_shared :
    (fusedLexicalVariantResults (R := ℚ) sharedCorpus ["alpha", "beta"] { limit := 2 }).map
        SearchResult.pageId =
      ((fusedLexicalVariantResults (R := ℚ) sharedCorpus ["alpha", "beta"] { limit := 8 }).map
        SearchResult.pageId).take 2 :=
  @fusedLexicalVariantResults_take _ _ ℚ _ sharedCorpus ["alpha", "beta"] {} 2 8 (by decide)
    (by decide) (by decide +kernel)

/-- The page on both subjects is the second result of each channel. -/
theorem cut_channels_hide :
    (sharedCorpus.pages.map WikiPage.id).Nodup ∧
      (fusedLexicalVariantResults (R := ℚ) sharedCorpus ["alpha", "beta"] { limit := 1 }).map
        SearchResult.pageId = ["x"] ∧
      (fusedLexicalVariantResults (R := ℚ) sharedCorpus ["alpha", "beta"] { limit := 2 }).map
        SearchResult.pageId = ["z", "x"] := by
  decide +kernel

end CutChannels

end LlmWikiServe.VariantFusion
