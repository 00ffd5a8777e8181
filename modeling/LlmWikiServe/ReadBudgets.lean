import LlmWikiServe.SectionRequests

/-!
# Budgets of reads

A focused read fills its budget with the chosen sections in the order of their rank and gives them
back in the order of the page.  What is included, what is cut and what is left over account for
every chosen section.
-/

namespace LlmWikiServe

/-! ## Clipped texts -/

theorem clipText_begins (text : Text) (budget : Nat) : clipText text budget <+: text := by
  unfold clipText
  split
  · exact List.prefix_refl text
  · simp only
    split
    · split
      · exact (List.take_prefix _ _).trans (List.take_prefix _ _)
      · exact List.take_prefix _ _
    · exact List.take_prefix _ _

theorem length_clipText_le (text : Text) (budget : Nat) : (clipText text budget).length ≤ budget := by
  unfold clipText
  split
  · assumption
  · have short : (text.take budget).length ≤ budget := List.length_take_le _ _
    simp only
    split
    · split
      · exact (List.length_take_le' _ _).trans short
      · exact short
    · exact short

/-! ## Filling -/

/-- A section with what is kept of it. -/
abbrev Piece := MarkdownSection × Text

structure Filled (budget : Nat) (done : List MarkdownSection) (filling : Filling)
    (pieces : List Piece) : Prop where
  included : filling.included = pieces.map fun piece => (piece.1.index, piece.2)
  used : filling.used = (pieces.map fun piece => piece.2.length).sum
  bounded : filling.used ≤ budget
  starts : ∀ piece ∈ pieces, piece.2 <+: piece.1.text
  whole : ∀ piece ∈ pieces.tail, piece.2 = piece.1.text
  accounted : (pieces.map Prod.fst ++ filling.remaining).Perm done

theorem Filled.nil (budget : Nat) : Filled budget [] {} [] :=
  ⟨rfl, rfl, Nat.zero_le _, by simp, by simp, by simp⟩

theorem Filled.fresh {budget : Nat} {done : List MarkdownSection} {filling : Filling}
    {pieces : List Piece} (filled : Filled budget done filling pieces) {entry : MarkdownSection}
    (new : entry.index ∉ done.map MarkdownSection.index) (kept : Text) :
    Keyed.set filling.included entry.index kept =
      (pieces ++ [(entry, kept)]).map fun piece => (piece.1.index, piece.2) := by
  have absent : entry.index ∉ filling.included.map Prod.fst := by
    rw [filled.included, List.map_map]
    intro present
    obtain ⟨piece, pieceIn, same⟩ := List.mem_map.mp present
    have member : piece.1 ∈ done := filled.accounted.subset
      (List.mem_append_left _ (List.mem_map_of_mem pieceIn))
    exact new (List.mem_map.mpr ⟨piece.1, member, same⟩)
  rw [Keyed.set, if_neg absent, filled.included, List.map_append]
  rfl

theorem Filled.add {budget : Nat} {done : List MarkdownSection} {filling : Filling}
    {pieces : List Piece} (filled : Filled budget done filling pieces) {entry : MarkdownSection}
    (new : entry.index ∉ done.map MarkdownSection.index) :
    ∃ pieces', Filled budget (done ++ [entry]) (filling.add budget entry) pieces' := by
  unfold Filling.add
  split
  next fits =>
    refine ⟨pieces ++ [(entry, entry.text)], filled.fresh new _, ?_, fits, ?_, ?_, ?_⟩
    · simp [filled.used]
    · intro piece member
      rcases List.mem_append.mp member with member | member
      · exact filled.starts piece member
      · rw [List.mem_singleton.mp member]
    · intro piece member
      cases pieces with
      | nil => cases member
      | cons first others =>
          rcases List.mem_append.mp member with member | member
          · exact filled.whole piece member
          · rw [List.mem_singleton.mp member]
    · simp only [List.map_append, List.map_cons, List.map_nil, List.append_assoc]
      exact (List.perm_append_comm.append_left _).trans
        (by simpa using filled.accounted.append_right [entry])
  next =>
    split
    next empty =>
      have none_ : pieces = [] := by simpa [filled.included] using empty
      subst none_
      have used : filling.used = 0 := filled.used
      refine ⟨[(entry, clipText entry.text budget)], filled.fresh new _, ?_, ?_, ?_, ?_, ?_⟩
      · simp [used]
      · simp only [used, Nat.zero_add]
        exact length_clipText_le _ _
      · intro piece member
        rw [List.mem_singleton.mp member]
        exact clipText_begins _ _
      · simp
      · have swapped : ([entry] ++ filling.remaining).Perm (filling.remaining ++ [entry]) :=
          List.perm_append_comm
        exact swapped.trans (filled.accounted.append_right [entry])
    next =>
      refine ⟨pieces, filled.included, filled.used, filled.bounded, filled.starts, filled.whole, ?_⟩
      simpa using filled.accounted.append_right [entry]

theorem filled_fillBudget {ranked : List MarkdownSection} (budget : Nat)
    (distinct : (ranked.map MarkdownSection.index).Nodup) :
    ∃ pieces, Filled budget ranked (fillBudget ranked budget) pieces := by
  unfold fillBudget
  induction ranked using List.reverseRecOn with
  | nil => exact ⟨[], .nil budget⟩
  | append_singleton others entry inductionHypothesis =>
      rw [List.map_append, List.nodup_append] at distinct
      obtain ⟨othersDistinct, -, apart⟩ := distinct
      obtain ⟨pieces, filled⟩ := inductionHypothesis othersDistinct
      rw [List.foldl_concat]
      apply filled.add
      intro present
      exact apart _ present _ (by simp) rfl

/-! ## The order of the page -/

theorem eq_of_index {sections : List MarkdownSection}
    (distinct : (sections.map MarkdownSection.index).Nodup) {first second : MarkdownSection}
    (firstIn : first ∈ sections) (secondIn : second ∈ sections)
    (same : first.index = second.index) : first = second :=
  List.inj_on_of_nodup_map distinct firstIn secondIn same

theorem map_fst_orderedSections (sections : List MarkdownSection) (included : List (Text × Text)) :
    (orderedSections sections included).map Prod.fst =
      sections.filter fun entry => (Keyed.get? included entry.index).isSome := by
  unfold orderedSections
  induction sections with
  | nil => rfl
  | cons entry rest inductionHypothesis =>
      rw [List.filterMap_cons, List.filter_cons]
      cases Keyed.get? included entry.index with
      | none => simpa using inductionHypothesis
      | some kept => simpa using inductionHypothesis

section Pieces

variable {budget : Nat} {sections done : List MarkdownSection} {filling : Filling}
  {pieces : List Piece} (filled : Filled budget done filling pieces)
  (distinct : (sections.map MarkdownSection.index).Nodup) (chosen : done.Nodup)
  (inside : ∀ entry ∈ done, entry ∈ sections)

include filled

theorem Filled.mem_done {piece : Piece} (member : piece ∈ pieces) : piece.1 ∈ done :=
  filled.accounted.subset (List.mem_append_left _ (List.mem_map_of_mem member))

include chosen

theorem Filled.nodup_sections : (pieces.map Prod.fst).Nodup :=
  (List.nodup_append.mp (filled.accounted.nodup_iff.mpr chosen)).1

include distinct inside

theorem Filled.get?_iff {entry : MarkdownSection} (entryIn : entry ∈ sections) {kept : Text} :
    Keyed.get? filling.included entry.index = some kept ↔ (entry, kept) ∈ pieces := by
  have firstsNodup := filled.nodup_sections chosen
  have same {first second : Piece} (firstIn : first ∈ pieces) (secondIn : second ∈ pieces)
      (index : first.1.index = second.1.index) : first = second :=
    List.inj_on_of_nodup_map firstsNodup firstIn secondIn
      (eq_of_index distinct (inside _ (filled.mem_done firstIn))
        (inside _ (filled.mem_done secondIn)) index)
  have keys : (filling.included.map Prod.fst).Nodup := by
    rw [filled.included, List.map_map]
    exact (List.nodup_map_iff_inj_on (List.Nodup.of_map _ firstsNodup)).mpr
      fun first firstIn second secondIn index => same firstIn secondIn index
  constructor
  · intro found
    have stored := Keyed.mem_of_get? found
    rw [filled.included] at stored
    obtain ⟨piece, member, shown⟩ := List.mem_map.mp stored
    obtain ⟨index, rfl⟩ := Prod.mk.inj shown
    obtain rfl := eq_of_index distinct (inside _ (filled.mem_done member)) entryIn index
    exact member
  · intro member
    have stored : (entry.index, kept) ∈ filling.included := by
      rw [filled.included]
      exact List.mem_map.mpr ⟨(entry, kept), member, rfl⟩
    exact Keyed.get?_of_mem keys stored

theorem Filled.ordered_perm : (orderedSections sections filling.included).Perm pieces := by
  have orderedNodup : (orderedSections sections filling.included).Nodup := by
    apply List.Nodup.of_map Prod.fst
    rw [map_fst_orderedSections]
    exact (List.Nodup.of_map _ distinct).filter _
  rw [List.perm_ext_iff_of_nodup orderedNodup
    (List.Nodup.of_map _ (filled.nodup_sections chosen))]
  rintro ⟨entry, kept⟩
  unfold orderedSections
  simp only [List.mem_filterMap, Option.map_eq_some_iff, Prod.mk.injEq]
  constructor
  · rintro ⟨_, entryIn, _, found, rfl, rfl⟩
    exact (filled.get?_iff distinct chosen inside entryIn).mp found
  · intro member
    have entryIn := inside _ (filled.mem_done member)
    exact ⟨entry, entryIn, kept, (filled.get?_iff distinct chosen inside entryIn).mpr member,
      rfl, rfl⟩

/-- A section is missed if it is left over or cut. -/
theorem Filled.missing_iff :
    (filling.remaining ≠ [] || done.any fun entry =>
        (Keyed.get? filling.included entry.index).any fun kept =>
          kept.length < entry.text.length) = true ↔
      ∃ entry ∈ done, (entry, entry.text) ∉ pieces := by
  have apart := (List.nodup_append.mp (filled.accounted.nodup_iff.mpr chosen)).2.2
  rw [Bool.or_eq_true, decide_eq_true_eq, List.any_eq_true]
  constructor
  · rintro (left | ⟨entry, member, cut⟩)
    · obtain ⟨entry, remains⟩ := List.exists_mem_of_ne_nil _ left
      refine ⟨entry, filled.accounted.subset (List.mem_append_right _ remains), fun whole => ?_⟩
      exact apart entry (List.mem_map_of_mem (f := Prod.fst) whole) entry remains rfl
    · refine ⟨entry, member, fun whole => ?_⟩
      rw [(filled.get?_iff distinct chosen inside (inside _ member)).mpr whole] at cut
      simp at cut
  · rintro ⟨entry, member, missed⟩
    rcases List.mem_append.mp (filled.accounted.mem_iff.mpr member) with included | remains
    · right
      obtain ⟨⟨entry, kept⟩, pieceIn, rfl⟩ := List.mem_map.mp included
      refine ⟨entry, member, ?_⟩
      rw [(filled.get?_iff distinct chosen inside (inside _ member)).mpr pieceIn]
      have starts : kept <+: entry.text := filled.starts _ pieceIn
      have differs : kept ≠ entry.text := by
        rintro rfl
        exact missed pieceIn
      simpa using lt_of_le_of_ne starts.length_le
        fun same => differs (starts.eq_of_length same)
    · exact Or.inl (List.ne_nil_of_mem remains)

end Pieces

/-! ## The choice -/

theorem chooseBelow_nodup {sections chosen : List MarkdownSection} (root : MarkdownSection)
    (distinct : chosen.Nodup) : (chooseBelow sections chosen root).Nodup := by
  unfold chooseBelow
  induction sections generalizing chosen with
  | nil => exact distinct
  | cons head rest inductionHypothesis =>
      rw [List.foldl_cons]
      apply inductionHypothesis
      split
      next added =>
        rw [Bool.and_eq_true, decide_eq_true_eq] at added
        exact distinct.append (List.nodup_singleton head) (by simpa using added.2)
      next => exact distinct

section Choice

variable [Unicode] [Compatibility]

theorem matchRequestedSections_chosen (sections : List MarkdownSection) (requested : List Text) :
    (matchRequestedSections sections requested).1.Nodup ∧
      ∀ entry ∈ (matchRequestedSections sections requested).1, entry ∈ sections := by
  unfold matchRequestedSections
  induction requested using List.reverseRecOn with
  | nil => simp
  | append_singleton others spec inductionHypothesis =>
      rw [List.foldl_concat]
      generalize others.foldl _ _ = state at inductionHypothesis ⊢
      obtain ⟨distinct, inside⟩ := inductionHypothesis
      simp only
      split
      · exact ⟨distinct, inside⟩
      split
      · exact ⟨distinct, inside⟩
      · constructor
        · generalize requestedRoots sections (wantedOf spec) = roots
          clear inside
          generalize state.1 = chosen at distinct
          induction roots generalizing chosen with
          | nil => exact distinct
          | cons root rest inductionHypothesis =>
              exact inductionHypothesis _ (chooseBelow_nodup root distinct)
        · intro entry member
          rcases mem_foldl_chooseBelow.mp member with earlier | ⟨member, -⟩
          · exact inside entry earlier
          · exact member

variable [Scores]

omit [Unicode] [Compatibility] [Scores] in
theorem queryCandidates_chosen {sections : List MarkdownSection} (distinct : sections.Nodup)
    (chosen : List MarkdownSection) (scores : List (Text × ℚ)) :
    (queryCandidates sections chosen scores).Nodup ∧
      ∀ entry ∈ queryCandidates sections chosen scores, entry ∈ sections ∧ entry ∉ chosen := by
  unfold queryCandidates
  simp only
  constructor
  · apply List.Nodup.sublist (List.take_sublist _ _)
    exact (List.mergeSort_perm _ _).nodup_iff.mpr (distinct.filter _)
  · intro entry member
    have kept := (List.mergeSort_perm _ _).subset ((List.take_sublist _ _).subset member)
    obtain ⟨inside, passed⟩ := List.mem_filter.mp kept
    rw [Bool.and_eq_true, decide_eq_true_eq, decide_eq_true_eq] at passed
    exact ⟨inside, passed.2⟩

/-- What a focused read chooses are sections of the page, each once. -/
theorem selectSections_chosen {sections : List MarkdownSection} (distinct : sections.Nodup)
    (query : Text) (requested : List Text) :
    (selectSections sections query requested).chosen.Nodup ∧
      ∀ entry ∈ (selectSections sections query requested).chosen, entry ∈ sections := by
  obtain ⟨namedDistinct, namedInside⟩ := matchRequestedSections_chosen sections requested
  unfold selectSections
  generalize matchRequestedSections sections requested = answer at namedDistinct namedInside ⊢
  obtain ⟨named, unmatched⟩ := answer
  simp only
  generalize (if query = [] then [] else sectionScores sections query) = scores
  have candidates : (if query = [] then [] else queryCandidates sections named scores).Nodup ∧
      ∀ entry ∈ (if query = [] then [] else queryCandidates sections named scores),
        entry ∈ sections ∧ entry ∉ named := by
    split
    · simp
    · exact queryCandidates_chosen distinct named scores
  generalize (if query = [] then [] else queryCandidates sections named scores) = candidates_ at *
  split
  · exact ⟨distinct.sublist (List.take_sublist _ _), fun entry member =>
      (List.take_sublist _ _).subset member⟩
  · constructor
    · refine namedDistinct.append candidates.1 ?_
      intro entry namedIn candidateIn
      exact (candidates.2 entry candidateIn).2 namedIn
    · intro entry member
      rcases List.mem_append.mp member with member | member
      · exact namedInside entry member
      · exact (candidates.2 entry member).1

end Choice

/-! ## Focused reads -/

section Focused

variable [Unicode] [Compatibility] [Scores] [Interpreter]

/-- The sections a focused read of the page chooses. -/
def chosenSections (page : Metadata) (query : Option Text) (requested : Option (List Text)) :
    List MarkdownSection :=
  (selectSections (splitMarkdownSections (readText page)) (Text.strip (query.getD []))
    (requested.getD [])).chosen

/-- A focused read accounts for the chosen sections: the pieces it returns, in the order of the
page, are whole but for at most one that is cut, they fit, and it tells what is missing. -/
structure Accounts (read : FocusedRead) (sections chosen : List MarkdownSection)
    (pieces : List Piece) (budget : Nat) : Prop where
  text : read.text = (pieces.map Prod.snd).flatten
  returned : read.returnedChars = read.text.length
  bounded : read.text.length ≤ budget
  ordered : (pieces.map Prod.fst).Sublist sections
  selected : read.selectedSections.map (fun entry => (entry.index, entry.chars)) =
    pieces.map fun piece => (piece.1.index, piece.2.length)
  starts : ∀ piece ∈ pieces, piece.1 ∈ chosen ∧ piece.2 <+: piece.1.text
  clipped : (pieces.filter fun piece => piece.2 ≠ piece.1.text).length ≤ 1
  truncated : read.truncated = true ↔ ∃ entry ∈ chosen, (entry, entry.text) ∉ pieces
  remaining : ∀ entry ∈ chosen, (∃ kept, (entry, kept) ∈ pieces) ∨
    entry.outlineLabel ∈ read.remainingSections

omit [Unicode] [Compatibility] [Scores] [Interpreter] in
theorem Filled.clipped {budget : Nat} {done : List MarkdownSection} {filling : Filling}
    {pieces : List Piece} (filled : Filled budget done filling pieces) :
    (pieces.filter fun piece => piece.2 ≠ piece.1.text).length ≤ 1 := by
  cases pieces with
  | nil => simp
  | cons first others =>
      have whole : others.filter (fun piece => piece.2 ≠ piece.1.text) = [] := by
        rw [List.filter_eq_nil_iff]
        intro piece member
        simpa using filled.whole piece member
      rw [List.filter_cons, whole]
      split <;> simp

theorem focusedReadPayload_accounts (page : Metadata) (query : Option Text)
    (requested : Option (List Text)) (maxChars : Option Nat) (includeLinks : Option Bool) :
    ∃ pieces, Accounts (focusedReadPayload page query requested maxChars includeLinks)
      (splitMarkdownSections (readText page)) (chosenSections page query requested) pieces
      (maxChars.getD focusedReadDefaultMaxChars) := by
  have distinct := indexes_nodup (readText page)
  have sectionsNodup : (splitMarkdownSections (readText page)).Nodup := List.Nodup.of_map _ distinct
  have choice := selectSections_chosen sectionsNodup (Text.strip (query.getD []))
    (requested.getD [])
  obtain ⟨chosenNodup, inside⟩ := choice
  have chosenDistinct : ((chosenSections page query requested).map MarkdownSection.index).Nodup :=
    (List.nodup_map_iff_inj_on chosenNodup).mpr fun first firstIn second secondIn same =>
      eq_of_index distinct (inside first firstIn) (inside second secondIn) same
  obtain ⟨ranked, filled⟩ :=
    filled_fillBudget (maxChars.getD focusedReadDefaultMaxChars) chosenDistinct
  have order := filled.ordered_perm distinct chosenNodup inside
  have shown {piece : Piece} (member : piece ∈ orderedSections
      (splitMarkdownSections (readText page)) (fillBudget (chosenSections page query requested)
        (maxChars.getD focusedReadDefaultMaxChars)).included) : piece ∈ ranked :=
    order.subset member
  refine ⟨orderedSections (splitMarkdownSections (readText page))
    (fillBudget (chosenSections page query requested)
      (maxChars.getD focusedReadDefaultMaxChars)).included, rfl, rfl, ?_, ?_, ?_,
    fun piece member => ?_, ?_, ?_, fun entry member => ?_⟩
  · have lengths := (order.map fun piece : Piece => piece.2.length).sum_eq
    have fits := filled.bounded
    rw [filled.used, ← lengths] at fits
    simpa [focusedReadPayload, List.length_flatten, chosenSections, Function.comp_def] using fits
  · rw [map_fst_orderedSections]
    exact List.filter_sublist
  · simp [focusedReadPayload, chosenSections]
  · exact ⟨filled.mem_done (shown member), filled.starts piece (shown member)⟩
  · rw [(order.filter _).length_eq]
    exact filled.clipped
  · refine (filled.missing_iff distinct chosenNodup inside).trans ?_
    simp only [order.mem_iff]
  · rcases List.mem_append.mp (filled.accounted.mem_iff.mpr member) with included | remains
    · obtain ⟨⟨entry, kept⟩, pieceIn, rfl⟩ := List.mem_map.mp included
      exact Or.inl ⟨kept, order.mem_iff.mpr pieceIn⟩
    · exact Or.inr (List.mem_map_of_mem remains)

end Focused

/-! ## Plain reads -/

def endsFrom (total : Nat) : List MarkdownSection → List (MarkdownSection × Nat)
  | [] => []
  | entry :: rest =>
      (entry, total - (rest.map MarkdownSection.text).flatten.length) :: endsFrom total rest

theorem endsFrom_concat (total : Nat) (front : List MarkdownSection) (last : MarkdownSection) :
    endsFrom total (front ++ [last]) =
      endsFrom (total - last.text.length) front ++ [(last, total)] := by
  induction front with
  | nil => simp [endsFrom]
  | cons entry rest inductionHypothesis =>
      rw [List.cons_append, endsFrom, inductionHypothesis, endsFrom]
      simp [Nat.sub_sub, Nat.add_comm]

theorem sectionsBeyond_reverse (kept total : Nat) (sections : List MarkdownSection) :
    (sectionsBeyond kept total sections.reverse).reverse =
      ((endsFrom total sections).filter fun item => kept < item.2).map Prod.fst := by
  induction sections using List.reverseRecOn generalizing total with
  | nil => rfl
  | append_singleton front last inductionHypothesis =>
      rw [List.reverse_concat, sectionsBeyond, endsFrom_concat, List.filter_append, List.map_append,
        ← inductionHypothesis]
      by_cases beyond : kept < total <;> simp [beyond]

theorem text_of_endsFrom {text lead : Text} {sections : List MarkdownSection}
    (whole : text = lead ++ (sections.map MarkdownSection.text).flatten)
    {item : MarkdownSection × Nat} (member : item ∈ endsFrom text.length sections) :
    item.2 ≤ text.length ∧ item.1.text <:+ text.take item.2 := by
  induction sections generalizing lead with
  | nil => cases member
  | cons entry rest inductionHypothesis =>
      rw [List.map_cons, List.flatten_cons] at whole
      rcases List.mem_cons.mp member with rfl | member
      · refine ⟨Nat.sub_le _ _, ?_⟩
        have stop : text.length - (rest.map MarkdownSection.text).flatten.length =
            (lead ++ entry.text).length := by
          rw [whole]
          simp
          omega
        simp only [stop]
        rw [whole, ← List.append_assoc, List.take_left]
        exact List.suffix_append _ _
      · exact inductionHypothesis (by rw [whole, List.append_assoc]) member

variable [Interpreter]

def plainPage (page : Metadata) (includeLinks : Option Bool) : Metadata :=
  if includeLinks = some false then page.filter fun entry => entry.1 ≠ ("links" : Text) else page

omit [Interpreter] in
theorem get?_plainPage (page : Metadata) (includeLinks : Option Bool) {key : Text}
    (other : key ≠ ("links" : Text)) :
    Keyed.get? (plainPage page includeLinks) key = Keyed.get? page key := by
  unfold plainPage
  split
  · induction page with
    | nil => rfl
    | cons entry rest inductionHypothesis =>
        by_cases links : entry.1 = ("links" : Text)
        · have passed : entry.1 ≠ key := fun same => other (same ▸ links)
          rw [List.filter_cons_of_neg (by simpa using links), inductionHypothesis]
          simp [Keyed.get?, passed]
        · rw [List.filter_cons_of_pos (by simpa using links)]
          by_cases same : entry.1 = key
          · simp [Keyed.get?, same]
          · simpa [Keyed.get?, same] using inductionHypothesis
  · rfl

theorem readText_plainPage (page : Metadata) (includeLinks : Option Bool) :
    readText (plainPage page includeLinks) = readText page := by
  unfold readText
  rw [get?_plainPage page includeLinks (by decide)]

omit [Interpreter] in
theorem endsFrom_splitMarkdownSections (text : Text) :
    ∀ item ∈ endsFrom text.length (splitMarkdownSections text),
      item.2 ≤ text.length ∧ item.1.text <:+ text.take item.2 := by
  intro item member
  have texts := texts_splitMarkdownSections text
  split at texts
  · have whole : text = text.take (firstStart text) ++
        ((splitMarkdownSections text).map MarkdownSection.text).flatten := by
      rw [texts, List.take_append_drop]
    exact text_of_endsFrom whole member
  · have whole : text = [] ++
        ((splitMarkdownSections text).map MarkdownSection.text).flatten := by
      rw [texts, List.nil_append]
    exact text_of_endsFrom whole member

theorem plainReadPayload_cut (page : Metadata) {maxChars : Nat} (includeLinks : Option Bool)
    (long : maxChars < (readText page).length) :
    let payload := plainReadPayload page (some maxChars) includeLinks
    let kept := clipText (readText page) maxChars
    Keyed.get? payload "text" = some (.str kept) ∧
      Keyed.get? payload "truncated" = some (.bool true) ∧
      Keyed.get? payload "total_chars" = some (.int (readText page).length) ∧
      Keyed.get? payload "returned_chars" = some (.int kept.length) ∧
      Keyed.get? payload "remaining_sections" = some (.list
        ((((sectionsBeyond kept.length (readText page).length
          (splitMarkdownSections (readText page)).reverse).map
            MarkdownSection.outlineLabel).reverse).map .str)) := by
  have unfolded : plainReadPayload page (some maxChars) includeLinks =
      if (readText (plainPage page includeLinks)).length ≤ maxChars then
        plainPage page includeLinks
      else
        let text := readText (plainPage page includeLinks)
        let kept := clipText text maxChars
        Keyed.set (Keyed.set (Keyed.set (Keyed.set (Keyed.set (plainPage page includeLinks)
          "text" (.str kept)) "truncated" (.bool true)) "total_chars" (.int text.length))
          "returned_chars" (.int kept.length)) "remaining_sections"
          (.list ((((sectionsBeyond kept.length text.length
            (splitMarkdownSections text).reverse).map MarkdownSection.outlineLabel).reverse).map
              .str)) := rfl
  rw [readText_plainPage, if_neg (not_le.mpr long)] at unfolded
  simp only at unfolded ⊢
  rw [unfolded]
  refine ⟨?_, ?_, ?_, ?_, ?_⟩
  · rw [Keyed.get?_set, if_neg (by decide), Keyed.get?_set, if_neg (by decide), Keyed.get?_set,
      if_neg (by decide), Keyed.get?_set, if_neg (by decide), Keyed.get?_set, if_pos rfl]
  · rw [Keyed.get?_set, if_neg (by decide), Keyed.get?_set, if_neg (by decide), Keyed.get?_set,
      if_neg (by decide), Keyed.get?_set, if_pos rfl]
  · rw [Keyed.get?_set, if_neg (by decide), Keyed.get?_set, if_neg (by decide), Keyed.get?_set,
      if_pos rfl]
  · rw [Keyed.get?_set, if_neg (by decide), Keyed.get?_set, if_pos rfl]
  · rw [Keyed.get?_set, if_pos rfl]

/-- A plain read cut to a budget returns a beginning of the text and names the sections that end
beyond it. -/
structure CutRead (page payload : Metadata) (maxChars : Nat) (kept : Text) : Prop where
  starts : kept <+: readText page
  bounded : kept.length ≤ maxChars
  text : Keyed.get? payload "text" = some (.str kept)
  truncated : Keyed.get? payload "truncated" = some (.bool true)
  total : Keyed.get? payload "total_chars" = some (.int (readText page).length)
  returned : Keyed.get? payload "returned_chars" = some (.int kept.length)
  remaining : Keyed.get? payload "remaining_sections" =
    some (.list (((endsFrom (readText page).length
      (splitMarkdownSections (readText page))).filter fun item => kept.length < item.2).map
        fun item => .str item.1.outlineLabel))
  /-- Sections end where they are taken to. -/
  ends : ∀ item ∈ endsFrom (readText page).length (splitMarkdownSections (readText page)),
    item.2 ≤ (readText page).length ∧ item.1.text <:+ (readText page).take item.2

theorem plainReadPayload_fits (page : Metadata) {maxChars : Nat} (includeLinks : Option Bool)
    (fits : (readText page).length ≤ maxChars) :
    plainReadPayload page (some maxChars) includeLinks = plainPage page includeLinks := by
  have unfolded : plainReadPayload page (some maxChars) includeLinks =
      if (readText (plainPage page includeLinks)).length ≤ maxChars then
        plainPage page includeLinks
      else _ := rfl
  rw [unfolded, readText_plainPage, if_pos fits]

theorem plainReadPayload_cutRead (page : Metadata) {maxChars : Nat} (includeLinks : Option Bool)
    (long : maxChars < (readText page).length) :
    CutRead page (plainReadPayload page (some maxChars) includeLinks) maxChars
      (clipText (readText page) maxChars) := by
  obtain ⟨text, truncated, total, returned, remaining⟩ :=
    plainReadPayload_cut page includeLinks long
  refine ⟨clipText_begins _ _, length_clipText_le _ _, text, truncated, total, returned, ?_,
    endsFrom_splitMarkdownSections _⟩
  rw [remaining, ← List.map_reverse, sectionsBeyond_reverse, List.map_map, List.map_map]
  rfl

/-- Reads with a budget account for everything: a focused read for the sections it chooses, a plain
read for the whole text. -/
theorem budgetedReads_account [Unicode] [Compatibility] [Scores] (page : Metadata)
    (query : Option Text) (requested : Option (List Text)) (maxChars : Nat)
    (includeLinks : Option Bool) :
    (∃ pieces, Accounts (focusedReadPayload page query requested (some maxChars) includeLinks)
      (splitMarkdownSections (readText page)) (chosenSections page query requested) pieces
      maxChars) ∧
    ((readText page).length ≤ maxChars →
      plainReadPayload page (some maxChars) includeLinks = plainPage page includeLinks ∧
        readText (plainPage page includeLinks) = readText page) ∧
    (maxChars < (readText page).length →
      ∃ kept, CutRead page (plainReadPayload page (some maxChars) includeLinks) maxChars kept) := by
  refine ⟨focusedReadPayload_accounts page query requested (some maxChars) includeLinks, ?_, ?_⟩
  · intro fits
    exact ⟨plainReadPayload_fits page includeLinks fits, readText_plainPage page includeLinks⟩
  · intro long
    exact ⟨_, plainReadPayload_cutRead page includeLinks long⟩

end LlmWikiServe
