import Mathlib

/-!
# Keyed lists

Lists read as insertion-ordered collections of keyed entries: the first entry of
every key wins, a later entry is absorbed into the first one, and a dictionary is
a list of key-value pairs.
-/

namespace LlmWikiServe.Keyed

universe u v w

variable {Entry : Type u} {Key : Type v} [DecidableEq Key]

/-- Keep the entries whose key is not among `seen` and has not occurred before. -/
def firstWinsFrom (key : Entry → Key) : List Key → List Entry → List Entry
  | _, [] => []
  | seen, entry :: rest =>
      if key entry ∈ seen then
        firstWinsFrom key seen rest
      else
        entry :: firstWinsFrom key (key entry :: seen) rest

def firstWins (key : Entry → Key) (entries : List Entry) : List Entry :=
  firstWinsFrom key [] entries

def first? (key : Entry → Key) (wanted : Key) (entries : List Entry) : Option Entry :=
  entries.find? (fun entry => key entry = wanted)

theorem first?_key {key : Entry → Key} {wanted : Key} {entries : List Entry} {entry : Entry}
    (found : first? key wanted entries = some entry) : key entry = wanted := by
  simpa using List.find?_some found

theorem first?_mem {key : Entry → Key} {wanted : Key} {entries : List Entry} {entry : Entry}
    (found : first? key wanted entries = some entry) : entry ∈ entries :=
  List.mem_of_find?_eq_some found

theorem first?_isSome_iff {key : Entry → Key} {wanted : Key} {entries : List Entry} :
    (first? key wanted entries).isSome ↔ ∃ entry ∈ entries, key entry = wanted := by
  simp [first?]

theorem first?_append (key : Entry → Key) (wanted : Key) (front back : List Entry) :
    first? key wanted (front ++ back) =
      (first? key wanted front).or (first? key wanted back) := by
  simp [first?]

theorem first?_eq_none_iff {key : Entry → Key} {wanted : Key} {entries : List Entry} :
    first? key wanted entries = none ↔ ∀ entry ∈ entries, key entry ≠ wanted := by
  simp [first?]

theorem mem_firstWinsFrom_iff (key : Entry → Key) (seen : List Key) (entries : List Entry)
    (entry : Entry) :
    entry ∈ firstWinsFrom key seen entries ↔
      key entry ∉ seen ∧ first? key (key entry) entries = some entry := by
  induction entries generalizing seen with
  | nil => simp [firstWinsFrom, first?]
  | cons head tail inductionHypothesis =>
      by_cases skipped : key head ∈ seen
      · have step : entry ∈ firstWinsFrom key seen (head :: tail) ↔
            entry ∈ firstWinsFrom key seen tail := by simp [firstWinsFrom, skipped]
        rw [step, inductionHypothesis]
        constructor
        · rintro ⟨fresh, found⟩
          have differs : key head ≠ key entry := fun same => fresh (same ▸ skipped)
          exact ⟨fresh, by simpa [first?, differs] using found⟩
        · rintro ⟨fresh, found⟩
          have differs : key head ≠ key entry := fun same => fresh (same ▸ skipped)
          exact ⟨fresh, by simpa [first?, differs] using found⟩
      · have step : entry ∈ firstWinsFrom key seen (head :: tail) ↔
            entry = head ∨ entry ∈ firstWinsFrom key (key head :: seen) tail := by
          simp [firstWinsFrom, skipped]
        rw [step, inductionHypothesis]
        by_cases same : key head = key entry
        · have headFirst : first? key (key entry) (head :: tail) = some head := by
            simp [first?, same]
          simp only [List.mem_cons, same, true_or, not_true_eq_false, false_and, or_false,
            headFirst, Option.some.injEq]
          exact ⟨fun equality => ⟨same ▸ skipped, equality.symm⟩, fun both => both.2.symm⟩
        · have tailFirst : first? key (key entry) (head :: tail) =
              first? key (key entry) tail := by simp [first?, same]
          have distinct : entry ≠ head := fun equality => same (congrArg key equality.symm)
          simp [tailFirst, distinct, Ne.symm same]

theorem mem_firstWins_iff {key : Entry → Key} {entries : List Entry} {entry : Entry} :
    entry ∈ firstWins key entries ↔ first? key (key entry) entries = some entry := by
  simp [firstWins, mem_firstWinsFrom_iff]

theorem mem_of_mem_firstWins {key : Entry → Key} {entries : List Entry} {entry : Entry}
    (membership : entry ∈ firstWins key entries) : entry ∈ entries :=
  first?_mem (mem_firstWins_iff.mp membership)

theorem mem_map_firstWins_iff {key : Entry → Key} {entries : List Entry} {wanted : Key} :
    wanted ∈ (firstWins key entries).map key ↔ wanted ∈ entries.map key := by
  constructor
  · intro membership
    rcases List.mem_map.mp membership with ⟨entry, entryIn, rfl⟩
    exact List.mem_map_of_mem (mem_of_mem_firstWins entryIn)
  · intro membership
    rcases List.mem_map.mp membership with ⟨entry, entryIn, rfl⟩
    have present : (first? key (key entry) entries).isSome :=
      first?_isSome_iff.mpr ⟨entry, entryIn, rfl⟩
    rcases Option.isSome_iff_exists.mp present with ⟨winner, found⟩
    have winnerKey := first?_key found
    exact List.mem_map.mpr
      ⟨winner, mem_firstWins_iff.mpr (by rw [winnerKey]; exact found), winnerKey⟩

theorem nodup_map_firstWinsFrom (key : Entry → Key) (seen : List Key) (entries : List Entry) :
    ((firstWinsFrom key seen entries).map key).Nodup := by
  induction entries generalizing seen with
  | nil => simp [firstWinsFrom]
  | cons head tail inductionHypothesis =>
      by_cases skipped : key head ∈ seen
      · simpa [firstWinsFrom, skipped] using inductionHypothesis seen
      · simp only [firstWinsFrom, skipped, if_false, List.map_cons, List.nodup_cons]
        refine ⟨?_, inductionHypothesis _⟩
        intro repeated
        rcases List.mem_map.mp repeated with ⟨entry, entryIn, same⟩
        have fresh := ((mem_firstWinsFrom_iff key _ tail entry).mp entryIn).1
        exact fresh (by simp [same])

/-- The surviving entries have pairwise distinct keys. -/
theorem nodup_map_firstWins (key : Entry → Key) (entries : List Entry) :
    ((firstWins key entries).map key).Nodup :=
  nodup_map_firstWinsFrom key [] entries

def absorb (key : Entry → Key) (merge : Entry → Entry → Entry)
    (result : List Entry) (entry : Entry) : List Entry :=
  if key entry ∈ result.map key then
    result.map fun kept => if key kept = key entry then merge kept entry else kept
  else
    result ++ [entry]

/-- One entry per key in order of first occurrence, later ones absorbed into it. -/
def mergeWins (key : Entry → Key) (merge : Entry → Entry → Entry)
    (entries : List Entry) : List Entry :=
  entries.foldl (absorb key merge) []

section Merge

variable {key : Entry → Key} {merge : Entry → Entry → Entry}

theorem map_key_absorb (keyed : ∀ kept entry, key (merge kept entry) = key kept)
    (result : List Entry) (entry : Entry) :
    (absorb key merge result entry).map key =
      if key entry ∈ result.map key then result.map key else result.map key ++ [key entry] := by
  unfold absorb
  split
  · rw [List.map_map]
    apply List.map_congr_left
    intro kept _
    by_cases same : key kept = key entry <;> simp [same, keyed]
  · simp

theorem mem_map_foldl_absorb (keyed : ∀ kept entry, key (merge kept entry) = key kept)
    (entries result : List Entry) (wanted : Key) :
    wanted ∈ (entries.foldl (absorb key merge) result).map key ↔
      wanted ∈ result.map key ∨ wanted ∈ entries.map key := by
  induction entries generalizing result with
  | nil => simp
  | cons head tail inductionHypothesis =>
      rw [List.foldl_cons, inductionHypothesis, map_key_absorb keyed, List.map_cons,
        List.mem_cons]
      split
      next present =>
        constructor
        · tauto
        · rintro (old | rfl | new)
          · exact Or.inl old
          · exact Or.inl present
          · exact Or.inr new
      next absent => simp [or_assoc]

theorem mem_map_mergeWins_iff (keyed : ∀ kept entry, key (merge kept entry) = key kept)
    {entries : List Entry} {wanted : Key} :
    wanted ∈ (mergeWins key merge entries).map key ↔ wanted ∈ entries.map key :=
  (mem_map_foldl_absorb keyed entries [] wanted).trans (by simp)

theorem nodup_map_foldl_absorb (keyed : ∀ kept entry, key (merge kept entry) = key kept)
    (entries result : List Entry) (distinct : (result.map key).Nodup) :
    ((entries.foldl (absorb key merge) result).map key).Nodup := by
  induction entries generalizing result with
  | nil => exact distinct
  | cons head tail inductionHypothesis =>
      apply inductionHypothesis
      rw [map_key_absorb keyed]
      split
      · exact distinct
      next absent => exact List.Nodup.append distinct (by simp) (by simpa using absent)

theorem nodup_map_mergeWins (keyed : ∀ kept entry, key (merge kept entry) = key kept)
    (entries : List Entry) : ((mergeWins key merge entries).map key).Nodup :=
  nodup_map_foldl_absorb keyed entries [] (by simp)

theorem filter_absorb (keyed : ∀ kept entry, key (merge kept entry) = key kept)
    (keep : Key → Bool) (result : List Entry) (entry : Entry) :
    (absorb key merge result entry).filter (fun kept => keep (key kept)) =
      if keep (key entry) then
        absorb key merge (result.filter fun kept => keep (key kept)) entry
      else
        result.filter fun kept => keep (key kept) := by
  have membership : ∀ wanted, keep wanted →
      (wanted ∈ (result.filter fun kept => keep (key kept)).map key ↔
        wanted ∈ result.map key) := by
    intro wanted kept
    simp only [List.mem_map, List.mem_filter]
    exact ⟨fun ⟨x, ⟨inResult, _⟩, same⟩ => ⟨x, inResult, same⟩,
      fun ⟨x, inResult, same⟩ => ⟨x, ⟨inResult, same ▸ kept⟩, same⟩⟩
  unfold absorb
  by_cases kept : keep (key entry) = true
  · simp only [kept, if_true, membership _ kept]
    split
    · rw [List.filter_map]
      congr 1
      apply List.filter_congr
      intro other _
      by_cases same : key other = key entry <;> simp [same, keyed]
    · simp [List.filter_append, kept]
  · have dropped : keep (key entry) = false := by simpa using kept
    simp only [dropped, Bool.false_eq_true, if_false]
    split
    · rw [List.filter_map]
      have unchanged : ∀ other ∈ result.filter
          ((fun kept => keep (key kept)) ∘ fun kept =>
            if key kept = key entry then merge kept entry else kept),
          (if key other = key entry then merge other entry else other) = other := by
        intro other otherIn
        have survives := (List.mem_filter.mp otherIn).2
        by_cases same : key other = key entry
        · simp [same, keyed, dropped] at survives
        · simp [same]
      rw [List.map_congr_left unchanged, List.map_id']
      apply List.filter_congr
      intro other _
      by_cases same : key other = key entry <;> simp [same, keyed]
    · simp [List.filter_append, dropped]

/-- Merging and then dropping whole keys is dropping the keys first. -/
theorem filter_mergeWins (keyed : ∀ kept entry, key (merge kept entry) = key kept)
    (keep : Key → Bool) (entries : List Entry) :
    (mergeWins key merge entries).filter (fun entry => keep (key entry)) =
      mergeWins key merge (entries.filter fun entry => keep (key entry)) := by
  have general : ∀ result : List Entry,
      (entries.foldl (absorb key merge) result).filter (fun entry => keep (key entry)) =
        (entries.filter fun entry => keep (key entry)).foldl (absorb key merge)
          (result.filter fun entry => keep (key entry)) := by
    induction entries with
    | nil => intro result; rfl
    | cons head tail inductionHypothesis =>
        intro result
        rw [List.foldl_cons, inductionHypothesis, filter_absorb keyed]
        by_cases kept : keep (key head) = true
        · simp [kept]
        · simp [Bool.eq_false_iff.mpr kept]
  simpa [mergeWins] using general []

theorem map_key_mergeWins (keyed : ∀ kept entry, key (merge kept entry) = key kept)
    (entries : List Entry) :
    (mergeWins key merge entries).map key = (firstWins key entries).map key := by
  have general : ∀ (entries result : List Entry) (seen : List Key),
      (∀ wanted, wanted ∈ seen ↔ wanted ∈ result.map key) →
      (entries.foldl (absorb key merge) result).map key =
        result.map key ++ (firstWinsFrom key seen entries).map key := by
    intro entries
    induction entries with
    | nil => simp [firstWinsFrom]
    | cons entry rest inductionHypothesis =>
        intro result seen same
        rw [List.foldl_cons, firstWinsFrom]
        split
        next present =>
          have absorbed := map_key_absorb keyed result entry
          rw [if_pos ((same _).mp present)] at absorbed
          rw [inductionHypothesis _ seen (fun wanted => by rw [absorbed, same]), absorbed]
        next fresh =>
          have appended := map_key_absorb keyed result entry
          rw [if_neg fun among => fresh ((same _).mpr among)] at appended
          rw [inductionHypothesis _ (key entry :: seen)
            (fun wanted => by rw [appended, List.mem_cons, List.mem_append, same,
              List.mem_singleton, or_comm]), appended, List.append_assoc, List.map_cons,
            List.singleton_append]
  exact general entries [] [] (by simp)

theorem mergeWins_single (keyed : ∀ kept entry, key (merge kept entry) = key kept) {head : Entry}
    {rest : List Entry} (same : ∀ entry ∈ rest, key entry = key head) :
    mergeWins key merge (head :: rest) = [rest.foldl merge head] := by
  have general : ∀ (rest : List Entry) (kept : Entry), (∀ entry ∈ rest, key entry = key kept) →
      rest.foldl (absorb key merge) [kept] = [rest.foldl merge kept] := by
    intro rest
    induction rest with
    | nil => simp
    | cons entry rest inductionHypothesis =>
        intro kept same
        have own := same entry List.mem_cons_self
        have step : absorb key merge [kept] entry = [merge kept entry] := by
          simp [absorb, own]
        rw [List.foldl_cons, List.foldl_cons, step]
        exact inductionHypothesis _ fun other among => by
          rw [keyed, same other (List.mem_cons_of_mem entry among)]
  exact general rest head same

/-- A merged entry is the first entry of its key with the later ones merged into it in order. -/
theorem mem_mergeWins (keyed : ∀ kept entry, key (merge kept entry) = key kept)
    {entries : List Entry} {merged : Entry} (among : merged ∈ mergeWins key merge entries) :
    ∃ head rest, (entries.filter fun entry => key entry = key merged) = head :: rest ∧
      merged = rest.foldl merge head := by
  have kept : merged ∈ mergeWins key merge
      (entries.filter fun entry => key entry = key merged) := by
    rw [← filter_mergeWins keyed fun wanted => decide (wanted = key merged)]
    exact List.mem_filter.mpr ⟨among, by simp⟩
  cases shape : entries.filter fun entry => decide (key entry = key merged) with
  | nil =>
      rw [shape] at kept
      cases kept
  | cons head rest =>
      have keys : ∀ entry ∈ head :: rest, key entry = key merged := by
        intro entry entryIn
        rw [← shape] at entryIn
        simpa using (List.mem_filter.mp entryIn).2
      have single := @mergeWins_single _ _ _ key merge keyed head rest fun entry entryIn =>
        (keys entry (List.mem_cons_of_mem head entryIn)).trans
          (keys head List.mem_cons_self).symm
      rw [shape, single] at kept
      exact ⟨head, rest, rfl, List.mem_singleton.mp kept⟩

end Merge

/-! ## Dictionaries -/

section Dictionary

variable {Value : Type w}

def get? (dict : List (Key × Value)) (key : Key) : Option Value :=
  (dict.find? fun entry => entry.1 = key).map Prod.snd

/-- Store a value: replace the one under the key in place, or append a new entry. -/
def set (dict : List (Key × Value)) (key : Key) (value : Value) : List (Key × Value) :=
  if key ∈ dict.map Prod.fst then
    dict.map fun entry => if entry.1 = key then (key, value) else entry
  else
    dict ++ [(key, value)]

def setDefault (dict : List (Key × Value)) (key : Key) (value : Value) : List (Key × Value) :=
  if key ∈ dict.map Prod.fst then dict else dict ++ [(key, value)]

/-- The dictionary that keeps the first value of every key. -/
def setDefaults (entries : List (Key × Value)) : List (Key × Value) :=
  entries.foldl (fun dict entry => setDefault dict entry.1 entry.2) []

/-- The entries grouped by a key, in order of first occurrence. -/
def group {Item : Type u} (key : Item → Key) (items : List Item) : List (Key × List Item) :=
  items.foldl
    (fun groups item => set groups (key item) ((get? groups (key item)).getD [] ++ [item])) []

/-- Store the entries of the second dictionary over the first one. -/
def update (dict incoming : List (Key × Value)) : List (Key × Value) :=
  incoming.foldl (fun current entry => set current entry.1 entry.2) dict

theorem get?_eq_none_iff {dict : List (Key × Value)} {key : Key} :
    get? dict key = none ↔ key ∉ dict.map Prod.fst := by
  simp only [get?, Option.map_eq_none_iff, List.find?_eq_none, decide_eq_true_eq, List.mem_map,
    not_exists, not_and]

theorem get?_isSome_iff {dict : List (Key × Value)} {key : Key} :
    (get? dict key).isSome ↔ key ∈ dict.map Prod.fst := by
  simp [get?]

theorem get?_append (front back : List (Key × Value)) (key : Key) :
    get? (front ++ back) key = (get? front key).or (get? back key) := by
  simp only [get?, List.find?_append]
  cases front.find? (fun entry => entry.1 = key) <;> simp

theorem get?_setDefault (dict : List (Key × Value)) (key wanted : Key) (value : Value) :
    get? (setDefault dict key value) wanted =
      (get? dict wanted).or (if key = wanted then some value else none) := by
  unfold setDefault
  split
  next present =>
    by_cases same : key = wanted
    · subst same
      rcases Option.isSome_iff_exists.mp (get?_isSome_iff.mpr present) with ⟨stored, found⟩
      simp [found]
    · simp [same]
  next absent =>
    rw [get?_append]
    by_cases same : key = wanted <;> simp [get?, same]

theorem get?_set (dict : List (Key × Value))
    (key wanted : Key) (value : Value) :
    get? (set dict key value) wanted =
      if key = wanted then some value else get? dict wanted := by
  unfold set
  split
  next present =>
    by_cases same : key = wanted
    · subst same
      rw [if_pos rfl]
      induction dict with
      | nil => cases present
      | cons entry rest inductionHypothesis =>
          by_cases head : entry.1 = key
          · simp [get?, head]
          · have later : key ∈ rest.map Prod.fst := by
              simpa [Ne.symm head] using present
            simpa [get?, head] using inductionHypothesis later
    · rw [if_neg same]
      clear present
      induction dict with
      | nil => rfl
      | cons entry rest inductionHypothesis =>
          by_cases head : entry.1 = key
          · have differs : entry.1 ≠ wanted := fun equality => same (head ▸ equality)
            simpa [get?, head, same, differs] using inductionHypothesis
          · by_cases found : entry.1 = wanted
            · subst found
              simp [get?, head]
            · simpa [get?, head, found] using inductionHypothesis
  next absent =>
    rw [get?_append]
    by_cases same : key = wanted
    · subst same
      rw [get?_eq_none_iff.mpr absent]
      simp [get?]
    · simp [get?, same]

theorem getD_foldl_group {Item : Type u} (key : Item → Key) (items : List Item)
    (groups : List (Key × List Item)) (wanted : Key) :
    (get? (items.foldl (fun groups item =>
        set groups (key item) ((get? groups (key item)).getD [] ++ [item])) groups) wanted).getD [] =
      (get? groups wanted).getD [] ++ items.filter fun item => key item = wanted := by
  induction items generalizing groups with
  | nil => simp
  | cons item rest inductionHypothesis =>
      rw [List.foldl_cons, inductionHypothesis, get?_set]
      by_cases same : key item = wanted <;> simp [same]

theorem getD_group {Item : Type u} (key : Item → Key) (items : List Item) (wanted : Key) :
    (get? (group key items) wanted).getD [] = items.filter fun item => key item = wanted :=
  (getD_foldl_group key items [] wanted).trans (by simp [get?])
theorem map_fst_set (dict : List (Key × Value)) (key : Key) (value : Value) :
    (set dict key value).map Prod.fst =
      if key ∈ dict.map Prod.fst then dict.map Prod.fst else dict.map Prod.fst ++ [key] := by
  unfold set
  split
  · rw [List.map_map]
    apply List.map_congr_left
    intro entry _
    by_cases same : entry.1 = key <;> simp [same]
  · simp

theorem mem_set {dict : List (Key × Value)} {key : Key} {value : Value} {entry : Key × Value}
    (membership : entry ∈ set dict key value) : entry = (key, value) ∨ entry ∈ dict := by
  unfold set at membership
  split at membership
  · rcases List.mem_map.mp membership with ⟨old, oldIn, rfl⟩
    split
    · exact Or.inl rfl
    · exact Or.inr oldIn
  · rcases List.mem_append.mp membership with old | new
    · exact Or.inr old
    · exact Or.inl (List.mem_singleton.mp new)

theorem mem_map_fst_set {dict : List (Key × Value)} {key wanted : Key} {value : Value} :
    wanted ∈ (set dict key value).map Prod.fst ↔ wanted = key ∨ wanted ∈ dict.map Prod.fst := by
  rw [map_fst_set]
  split
  next present => exact ⟨Or.inr, fun either => either.elim (fun same => same ▸ present) id⟩
  next => simp [or_comm]

theorem nodup_map_fst_set {dict : List (Key × Value)} (distinct : (dict.map Prod.fst).Nodup)
    (key : Key) (value : Value) : ((set dict key value).map Prod.fst).Nodup := by
  rw [map_fst_set]
  split
  · exact distinct
  next absent =>
    refine List.nodup_append'.mpr ⟨distinct, List.nodup_singleton key, ?_⟩
    exact List.disjoint_singleton.mpr absent

theorem nodup_map_fst_foldl_group {Item : Type u} (key : Item → Key) (items : List Item)
    {groups : List (Key × List Item)} (distinct : (groups.map Prod.fst).Nodup) :
    ((items.foldl (fun groups item =>
        set groups (key item) ((get? groups (key item)).getD [] ++ [item])) groups).map
      Prod.fst).Nodup := by
  induction items generalizing groups with
  | nil => exact distinct
  | cons item rest inductionHypothesis =>
      exact inductionHypothesis (nodup_map_fst_set distinct _ _)

theorem nodup_map_fst_group {Item : Type u} (key : Item → Key) (items : List Item) :
    ((group key items).map Prod.fst).Nodup :=
  nodup_map_fst_foldl_group key items List.nodup_nil

theorem mem_map_fst_foldl_group {Item : Type u} {key : Item → Key} {items : List Item}
    {groups : List (Key × List Item)} {wanted : Key} :
    wanted ∈ (items.foldl (fun groups item =>
        set groups (key item) ((get? groups (key item)).getD [] ++ [item])) groups).map Prod.fst ↔
      wanted ∈ groups.map Prod.fst ∨ ∃ item ∈ items, key item = wanted := by
  induction items generalizing groups with
  | nil => simp
  | cons item rest inductionHypothesis =>
      rw [List.foldl_cons, inductionHypothesis, mem_map_fst_set]
      simp only [List.mem_cons, exists_eq_or_imp, eq_comm (a := wanted) (b := key item)]
      tauto

theorem mem_map_fst_group {Item : Type u} {key : Item → Key} {items : List Item} {wanted : Key} :
    wanted ∈ (group key items).map Prod.fst ↔ ∃ item ∈ items, key item = wanted :=
  mem_map_fst_foldl_group.trans (by simp)

theorem mem_update {dict incoming : List (Key × Value)} {entry : Key × Value}
    (membership : entry ∈ update dict incoming) : entry ∈ dict ∨ entry ∈ incoming := by
  induction incoming generalizing dict with
  | nil => exact Or.inl membership
  | cons head tail inductionHypothesis =>
      rcases @inductionHypothesis (set dict head.1 head.2) membership with old | new
      · rcases mem_set old with rfl | older
        · exact Or.inr List.mem_cons_self
        · exact Or.inl older
      · exact Or.inr (List.mem_cons_of_mem head new)

theorem nodup_map_fst_update {dict incoming : List (Key × Value)}
    (distinct : (dict.map Prod.fst).Nodup) : ((update dict incoming).map Prod.fst).Nodup := by
  induction incoming generalizing dict with
  | nil => exact distinct
  | cons entry rest inductionHypothesis =>
      exact inductionHypothesis (nodup_map_fst_set distinct _ _)

theorem mem_map_fst_update {dict incoming : List (Key × Value)} {wanted : Key} :
    wanted ∈ (update dict incoming).map Prod.fst ↔
      wanted ∈ dict.map Prod.fst ∨ wanted ∈ incoming.map Prod.fst := by
  induction incoming generalizing dict with
  | nil => simp [update]
  | cons head tail inductionHypothesis =>
      have step := @inductionHypothesis (set dict head.1 head.2)
      rw [mem_map_fst_set] at step
      rw [List.map_cons, List.mem_cons]
      exact step.trans (by tauto)

/-- Entries under distinct new keys are appended. -/
theorem update_append {dict incoming : List (Key × Value)}
    (distinct : ((dict ++ incoming).map Prod.fst).Nodup) :
    update dict incoming = dict ++ incoming := by
  induction incoming generalizing dict with
  | nil => simp [update]
  | cons entry rest inductionHypothesis =>
      have fresh : set dict entry.1 entry.2 = dict ++ [entry] := by
        rw [set, if_neg]
        simp only [List.map_append, List.map_cons, List.nodup_append] at distinct
        exact fun among => distinct.2.2 _ among _ List.mem_cons_self rfl
      have regrouped : dict ++ entry :: rest = (dict ++ [entry]) ++ rest := by simp
      rw [regrouped] at distinct ⊢
      rw [← inductionHypothesis distinct, ← fresh]
      rfl

theorem update_nil {entries : List (Key × Value)} (distinct : (entries.map Prod.fst).Nodup) :
    update [] entries = entries :=
  update_append distinct

theorem get?_foldl_setDefault (entries dict : List (Key × Value)) (wanted : Key) :
    get? (entries.foldl (fun current entry => setDefault current entry.1 entry.2) dict) wanted =
      (get? dict wanted).or (get? entries wanted) := by
  induction entries generalizing dict with
  | nil => simp [get?]
  | cons entry rest inductionHypothesis =>
      rw [List.foldl_cons, inductionHypothesis, get?_setDefault, Option.or_assoc]
      congr 1
      rw [← List.singleton_append, get?_append]
      by_cases same : entry.1 = wanted <;> simp [get?, same]

/-- Storing defaults one by one finds the first entry of a key. -/
theorem get?_setDefaults (entries : List (Key × Value)) (wanted : Key) :
    get? (setDefaults entries) wanted = get? entries wanted := by
  rw [setDefaults, get?_foldl_setDefault]
  rfl

theorem mem_of_get? {dict : List (Key × Value)} {key : Key} {value : Value}
    (found : get? dict key = some value) : (key, value) ∈ dict := by
  simp only [get?, Option.map_eq_some_iff] at found
  rcases found with ⟨entry, located, rfl⟩
  have matched : entry.1 = key := by simpa using List.find?_some located
  have stored := List.mem_of_find?_eq_some located
  rw [← matched]
  exact stored

theorem get?_of_mem {dict : List (Key × Value)} {entry : Key × Value}
    (distinct : (dict.map Prod.fst).Nodup) (membership : entry ∈ dict) :
    get? dict entry.1 = some entry.2 := by
  have present : (get? dict entry.1).isSome :=
    get?_isSome_iff.mpr (List.mem_map_of_mem membership)
  rcases Option.isSome_iff_exists.mp present with ⟨value, found⟩
  have stored := mem_of_get? found
  have equality : (entry.1, value) = entry :=
    List.inj_on_of_nodup_map distinct stored membership rfl
  rw [found, ← equality]

theorem eq_filter_of_mem_group {Item : Type u} {key : Item → Key} {items : List Item}
    {entry : Key × List Item} (member : entry ∈ group key items) :
    entry.2 = items.filter fun item => key item = entry.1 := by
  rw [← getD_group key items entry.1, get?_of_mem (nodup_map_fst_group key items) member]
  rfl

/-- Permuted entries under distinct keys are found alike. -/
theorem get?_of_perm {first second : List (Key × Value)} (same : first.Perm second)
    (distinct : (first.map Prod.fst).Nodup) (key : Key) : get? first key = get? second key := by
  have otherDistinct : (second.map Prod.fst).Nodup := (same.map Prod.fst).nodup_iff.mp distinct
  cases found : get? second key with
  | none =>
      rw [get?_eq_none_iff] at found ⊢
      exact fun among => found ((same.map Prod.fst).mem_iff.mp among)
  | some value => exact get?_of_mem distinct (same.mem_iff.mpr (mem_of_get? found))

/-! ### Two dictionaries with the same keys -/

/-- Dictionaries with the same keys in the same order and related values. -/
abbrev Related (relation : Value → Value → Prop) (first second : List (Key × Value)) : Prop :=
  List.Forall₂ (fun left right => left.1 = right.1 ∧ relation left.2 right.2) first second

variable {relation : Value → Value → Prop} {first second : List (Key × Value)}

omit [DecidableEq Key] in
theorem Related.keys (related : Related relation first second) :
    first.map Prod.fst = second.map Prod.fst := by
  induction related with
  | nil => rfl
  | cons entry _ inductionHypothesis => simp [entry.1, inductionHypothesis]

theorem Related.set (related : Related relation first second) {key : Key} {left right : Value}
    (values : relation left right) :
    Related relation (set first key left) (set second key right) := by
  unfold Keyed.set
  rw [related.keys]
  split
  · refine List.rel_map ?_ related
    intro old new entry
    dsimp only
    rw [entry.1]
    split
    · exact ⟨rfl, values⟩
    · exact entry
  · exact List.rel_append related (.cons ⟨rfl, values⟩ .nil)

/-- A key is absent from both dictionaries or has related values in them. -/
theorem Related.get? (related : Related relation first second) (key : Key) :
    (get? first key = none ∧ get? second key = none) ∨
      ∃ left right, get? first key = some left ∧ get? second key = some right ∧
        relation left right := by
  induction related with
  | nil => exact Or.inl ⟨rfl, rfl⟩
  | @cons left right _ _ entry _ inductionHypothesis =>
      by_cases same : left.1 = key
      · have sameRight : right.1 = key := entry.1 ▸ same
        exact Or.inr ⟨left.2, right.2, by simp [Keyed.get?, same],
          by simp [Keyed.get?, sameRight], entry.2⟩
      · have differsRight : right.1 ≠ key := entry.1 ▸ same
        simpa [Keyed.get?, same, differsRight] using inductionHypothesis

end Dictionary

omit [DecidableEq Key] in
theorem filterMap_keys {α β : Type} {values : List α} {pick : α → Option β} {key : α → Key}
    {picked : β → Key} (same : ∀ value result, pick value = some result → picked result = key value) :
    ((values.filterMap pick).map picked).Sublist (values.map key) := by
  induction values with
  | nil => exact .slnil
  | cons value rest inductionHypothesis =>
      cases found : pick value with
      | none =>
          rw [List.filterMap_cons_none found]
          exact inductionHypothesis.cons (key value)
      | some result =>
          rw [List.filterMap_cons_some found, List.map_cons, List.map_cons, same value result found]
          exact inductionHypothesis.cons_cons (key value)

end LlmWikiServe.Keyed
