import LlmWikiServe.RedisRoundTrip

/-!
# Processes that share Redis

Processes keep their projections in one Redis, each with a dictionary of its own to fall back on.
A call of a client may fail with its effect done or not.  No process ever reads a record of another
key, and one that is alone with a key reads back what it stored there last, and nothing that it
invalidated.
-/

namespace LlmWikiServe.ProjectionPayload

open GraphStore (safeKeyPart sanitized partDigest)

/-! ## Names in Redis -/

section Names

variable [Hashing]

/-- `redis_source_projection_key_pattern(namespace, source_id)` without the `*` at its end; no other
character is special in a pattern of Redis. -/
def redisSourceProjectionKeyPrefix (namespace_ sourceId : Text) : Text :=
  Text.join ":"
    ["llmwiki", safeKeyPart namespace_, "projections", safeKeyPart "projection-store-v1",
      safeKeyPart sourceId, []]

/-- Digests are of characters that stay as they are in a name. -/
def Hexadecimal : Prop := ∀ text, ∀ char ∈ Hashing.sha256 text, GraphStore.isKeyChar char = true

omit [Hashing] in
theorem mem_collapseFrom {keep : Char → Bool} {filler char : Char} {inRun : Bool} {text : Text}
    (charIn : char ∈ Text.collapseFrom keep filler inRun text) :
    keep char = true ∨ char = filler := by
  induction text generalizing inRun with
  | nil => cases charIn
  | cons head rest inductionHypothesis =>
      rw [Text.collapseFrom] at charIn
      split_ifs at charIn with kept running
      · rcases List.mem_cons.mp charIn with rfl | later
        · exact .inl kept
        · exact inductionHypothesis later
      · exact inductionHypothesis charIn
      · rcases List.mem_cons.mp charIn with rfl | later
        · exact .inr rfl
        · exact inductionHypothesis later

omit [Hashing] in
theorem isKeyChar_sanitized {value : Text} {char : Char} (charIn : char ∈ sanitized value) :
    GraphStore.isKeyChar char = true := by
  unfold sanitized at charIn
  dsimp only at charIn
  split_ifs at charIn with blank
  · revert charIn char
    decide
  · have inFront := (List.rdropWhile_prefix _ _).subset charIn
    rcases mem_collapseFrom ((List.dropWhile_sublist _).subset inFront) with kept | rfl
    · exact kept
    · rfl

theorem isKeyChar_safeKeyPart (hex : Hexadecimal) {value : Text} {char : Char}
    (charIn : char ∈ safeKeyPart value) : GraphStore.isKeyChar char = true := by
  unfold safeKeyPart at charIn
  dsimp only at charIn
  split_ifs at charIn with safe
  · exact isKeyChar_sanitized charIn
  · rcases List.mem_append.mp charIn with front | back
    · exact isKeyChar_sanitized (List.mem_of_mem_take front)
    · rcases List.mem_cons.mp back with rfl | digit
      · rfl
      · exact hex value char (List.mem_of_mem_take digit)

theorem colon_safeKeyPart (hex : Hexadecimal) (value : Text) : ':' ∉ safeKeyPart value := by
  intro colonIn
  exact absurd (isKeyChar_safeKeyPart hex colonIn) (by decide)

omit [Hashing] in
theorem takeWhile_colon {part : Text} (without : ':' ∉ part) (rest : Text) :
    (part ++ ':' :: rest).takeWhile (· ≠ ':') = part := by
  rw [List.takeWhile_append_of_pos]
  · simp
  · intro char charIn
    exact decide_eq_true fun same => without (same ▸ charIn)

omit [Hashing] in
theorem colon_inj {first second rest more : Text} (firstPart : ':' ∉ first)
    (secondPart : ':' ∉ second) :
    first ++ ':' :: rest = second ++ ':' :: more ↔ first = second ∧ rest = more := by
  constructor
  · intro same
    have shared : first = second := by
      have words := congrArg (List.takeWhile (· ≠ ':')) same
      rwa [takeWhile_colon firstPart, takeWhile_colon secondPart] at words
    subst shared
    exact ⟨rfl, (List.cons.inj (List.append_cancel_left same)).2⟩
  · rintro ⟨rfl, rfl⟩
    rfl

omit [Hashing] in
theorem colon_prefix {first second rest more : Text} (firstPart : ':' ∉ first)
    (secondPart : ':' ∉ second) :
    first ++ ':' :: rest <+: second ++ ':' :: more ↔ first = second ∧ rest <+: more := by
  constructor
  · rintro ⟨tail, same⟩
    rw [List.append_assoc, List.cons_append, colon_inj firstPart secondPart] at same
    exact ⟨same.1, tail, same.2⟩
  · rintro ⟨rfl, tail, rfl⟩
    exact ⟨tail, by simp⟩

theorem redisProjectionKey_parts (key : ProjectionKey) :
    redisProjectionKey key = ("llmwiki" : Text) ++ ':' :: (safeKeyPart key.namespace_ ++ ':' ::
      (("projections" : Text) ++ ':' :: (safeKeyPart key.schemaVersion ++ ':' ::
        (safeKeyPart key.sourceId ++ ':' :: safeKeyPart key.projectionSignature)))) := by
  simp [redisProjectionKey, Text.join, List.intercalate]

theorem redisSourceProjectionKeyPrefix_parts (namespace_ sourceId : Text) :
    redisSourceProjectionKeyPrefix namespace_ sourceId =
      ("llmwiki" : Text) ++ ':' :: (safeKeyPart namespace_ ++ ':' :: (("projections" : Text) ++
        ':' :: (safeKeyPart "projection-store-v1" ++ ':' ::
          (safeKeyPart sourceId ++ ':' :: [])))) := by
  simp [redisSourceProjectionKeyPrefix, Text.join, List.intercalate]

theorem redisLatestKey_parts (key : ProjectionKey) :
    redisLatestKey key =
      ("llmwiki" : Text) ++ ':' :: (safeKeyPart key.namespace_ ++ ':' :: (("sources" : Text) ++
        ':' :: (safeKeyPart key.sourceId ++ ':' :: ("latest" : Text)))) := by
  simp [redisLatestKey, Text.join, List.intercalate]

theorem redisLatestKey_ne (hex : Hexadecimal) (other key : ProjectionKey) :
    redisLatestKey other ≠ redisProjectionKey key := by
  intro same
  rw [redisLatestKey_parts, redisProjectionKey_parts, colon_inj (by decide) (by decide),
    colon_inj (colon_safeKeyPart hex _) (colon_safeKeyPart hex _),
    colon_inj (by decide) (by decide)] at same
  exact absurd same.2.2.1 (by decide)

/-- The pattern of a source matches the names of its projections. -/
theorem prefix_redisProjectionKey_iff (hex : Hexadecimal) (namespace_ sourceId : Text)
    {key : ProjectionKey} (current : key.schemaVersion = "projection-store-v1") :
    redisSourceProjectionKeyPrefix namespace_ sourceId <+: redisProjectionKey key ↔
      safeKeyPart namespace_ = safeKeyPart key.namespace_ ∧
        safeKeyPart sourceId = safeKeyPart key.sourceId := by
  have part := colon_safeKeyPart hex
  rw [redisSourceProjectionKeyPrefix_parts, redisProjectionKey_parts, current,
    colon_prefix (by decide) (by decide), colon_prefix (part _) (part _),
    colon_prefix (by decide) (by decide), colon_prefix (part _) (part _),
    colon_prefix (part _) (part _)]
  simp

end Names

/-! ## Invalidation -/

section Stores

/-- `RedisProjectionStore.invalidate_source(namespace=…, source_id=…)`, `failure` being the message
of the client where it fails. -/
def RedisProjectionStore.invalidateSource (store : RedisProjectionStore)
    (namespace_ sourceId : Text) (failure : Option Text) :
    Except Text Unit × RedisProjectionStore :=
  let kept := { store with
    memoryFallback := store.memoryFallback.filter fun entry =>
      entry.1.namespace_ ≠ namespace_ || entry.1.sourceId ≠ sourceId }
  if !store.available then (.ok (), kept)
  else
    match failure with
    | none => (.ok (), kept)
    | some message =>
        if store.failFast then
          (.error (("Redis projection store failed: " : Text) ++ message),
            { kept with lastError := message })
        else (.ok (), { kept with lastError := message, available := false })

def redisWithoutSource [Hashing] (redis : List (Text × Text)) (namespace_ sourceId : Text) :
    List (Text × Text) :=
  redis.filter fun entry =>
    !decide (redisSourceProjectionKeyPrefix namespace_ sourceId <+: entry.1) &&
      entry.1 ≠ redisLatestKey { namespace_, sourceId, projectionSignature := [] }

theorem get?_filter_fst {Key Value : Type} [DecidableEq Key] (dict : List (Key × Value))
    (keep : Key → Bool) (key : Key) :
    Keyed.get? (dict.filter fun entry => keep entry.1) key =
      if keep key then Keyed.get? dict key else none := by
  simp only [Keyed.get?, List.find?_filter]
  split_ifs with kept
  · congr 2
    funext entry
    by_cases same : entry.1 = key
    · simp [same, kept]
    · simp [same]
  · rw [Option.map_eq_none_iff, List.find?_eq_none]
    intro entry _
    by_cases same : entry.1 = key
    · simp [same, kept]
    · simp [same]

end Stores

/-! ## Runs of several processes -/

section Runs

variable {Process : Type}

structure World (Process : Type) where
  redis : List (Text × Text)
  stores : Process → RedisProjectionStore

/-- A call of a process; where its client fails, some of the effect may be done. -/
inductive StoreEvent (Process : Type) where
  /-- The first `written` of the values were set before a failure. -/
  | put (process : Process) (record : ProjectionRecord) (failure : Option Text) (written : Nat)
  | invalidateSource (process : Process) (namespace_ sourceId : Text) (failure : Option Text)
      (deleted : Bool)
  | get (process : Process) (key : ProjectionKey) (root : List Text) (failure : Option Text)
  /-- Redis drops a value, to make room or at a restart. -/
  | drop (name : Text)

def clientOf (redis : List (Text × Text)) (failure : Option Text) (name : Text) :
    Except Text (Option Text) :=
  match failure with
  | none => .ok (Keyed.get? redis name)
  | some message => .error message

def setValues (redis : List (Text × Text)) (writes : List (Text × Text)) : List (Text × Text) :=
  writes.foldl (fun redis write => Keyed.set redis write.1 write.2) redis

section Steps

variable (F : Type) [JsonNumbers F] [Json.FloatRepr F] [Interpreter] [Hashing]
  [DecidableEq Process]

def redisAfterPut (redis : List (Text × Text)) (available : Bool) (record : ProjectionRecord)
    (failure : Option Text) (written : Nat) : List (Text × Text) :=
  if available then
    setValues redis (if failure.isNone then redisWrites F record
      else (redisWrites F record).take written)
  else redis

def storeStep (world : World Process) : StoreEvent Process → World Process
  | .put process record failure written =>
      { redis := redisAfterPut F world.redis (world.stores process).available record failure written
        stores := Function.update world.stores process
          ((world.stores process).put F record failure).2 }
  | .invalidateSource process namespace_ sourceId failure deleted =>
      { redis :=
          if (world.stores process).available && (failure.isNone || deleted) then
            redisWithoutSource world.redis namespace_ sourceId
          else world.redis
        stores := Function.update world.stores process
          ((world.stores process).invalidateSource namespace_ sourceId failure).2 }
  | .get process key root failure =>
      { world with
        stores := Function.update world.stores process
          ((world.stores process).get F (clientOf world.redis failure) key root).2 }
  | .drop name => { world with redis := world.redis.filter fun entry => entry.1 ≠ name }

def storeRun (world : World Process) (events : List (StoreEvent Process)) : World Process :=
  events.foldl (storeStep F) world

def World.read (world : World Process) (process : Process) (key : ProjectionKey)
    (root : List Text) (failure : Option Text) : Except Text (Option ProjectionRecord) :=
  ((world.stores process).get F (clientOf world.redis failure) key root).1

end Steps

/-- The record that a process stored last under a key: `some none` where it invalidated the source
since, `none` where it did neither. -/
def lastStored [DecidableEq Process] (process : Process) (key : ProjectionKey)
    (own : Option (Option ProjectionRecord)) : StoreEvent Process → Option (Option ProjectionRecord)
  | .put other record _ _ => if other = process ∧ record.key = key then some (some record) else own
  | .invalidateSource other namespace_ sourceId _ _ =>
      if other = process ∧ namespace_ = key.namespace_ ∧ sourceId = key.sourceId then some none
      else own
  | .get .. => own
  | .drop _ => own

/-- No other process touches what Redis has under the key, nor does Redis drop it, and the process
itself touches it by that key and its source alone. -/
def Alone [Hashing] (process : Process) (key : ProjectionKey) : StoreEvent Process → Prop
  | .put other record _ _ =>
      redisProjectionKey record.key = redisProjectionKey key → other = process ∧ record.key = key
  | .invalidateSource other namespace_ sourceId _ _ =>
      safeKeyPart namespace_ = safeKeyPart key.namespace_ →
        safeKeyPart sourceId = safeKeyPart key.sourceId →
          other = process ∧ namespace_ = key.namespace_ ∧ sourceId = key.sourceId
  | .get .. => True
  | .drop name => name ≠ redisProjectionKey key

end Runs

/-! ## What one call changes -/

section Calls

variable {F : Type} [JsonNumbers F] [Json.FloatRepr F] [Hashing]

theorem put_store [Interpreter] (store : RedisProjectionStore) (record : ProjectionRecord)
    (failure : Option Text) :
    (store.put F record failure).2.memoryFallback =
        Keyed.set store.memoryFallback record.key record ∧
      (store.put F record failure).2.failFast = store.failFast ∧
      ((store.put F record failure).2.available = true → store.available = true ∧
        (store.failFast = false → failure = none)) := by
  unfold RedisProjectionStore.put
  cases store.available <;> cases failure <;> cases store.failFast <;> simp

omit [JsonNumbers F] [Json.FloatRepr F] [Hashing] in
theorem invalidateSource_store (store : RedisProjectionStore) (namespace_ sourceId : Text)
    (failure : Option Text) :
    (store.invalidateSource namespace_ sourceId failure).2.memoryFallback =
        (store.memoryFallback.filter fun entry =>
          entry.1.namespace_ ≠ namespace_ || entry.1.sourceId ≠ sourceId) ∧
      (store.invalidateSource namespace_ sourceId failure).2.failFast = store.failFast ∧
      ((store.invalidateSource namespace_ sourceId failure).2.available = true →
        store.available = true ∧ (store.failFast = false → failure = none)) := by
  unfold RedisProjectionStore.invalidateSource
  cases store.available <;> cases failure <;> cases store.failFast <;> simp

theorem get_store (store : RedisProjectionStore)
    (client : Text → Except Text (Option Text)) (key : ProjectionKey) (root : List Text) :
    (store.get F client key root).2.memoryFallback = store.memoryFallback ∧
      (store.get F client key root).2.failFast = store.failFast ∧
      ((store.get F client key root).2.available = true → store.available = true) := by
  unfold RedisProjectionStore.get
  split
  next => exact ⟨rfl, rfl, id⟩
  next opened =>
    have available : store.available = true := by simpa using opened
    split
    · split <;> exact ⟨rfl, rfl, fun _ => available⟩
    · exact ⟨rfl, rfl, fun _ => available⟩
    · split
      · exact ⟨rfl, rfl, fun _ => available⟩
      · split <;> exact ⟨rfl, rfl, fun _ => available⟩

omit [Hashing] in
theorem get?_setValues {redis writes : List (Text × Text)} {name : Text}
    (apart : ∀ write ∈ writes, write.1 ≠ name) :
    Keyed.get? (setValues redis writes) name = Keyed.get? redis name := by
  induction writes generalizing redis with
  | nil => rfl
  | cons write writes inductionHypothesis =>
      obtain ⟨here, later⟩ := List.forall_mem_cons.mp apart
      rw [setValues, List.foldl_cons]
      exact (inductionHypothesis later).trans (by rw [Keyed.get?_set, if_neg here])

/-- A put leaves the other names alone, whatever of it was done. -/
theorem get?_redisAfterPut [Interpreter] (hex : Hexadecimal) {record : ProjectionRecord}
    {key : ProjectionKey} (apart : redisProjectionKey record.key ≠ redisProjectionKey key)
    (redis : List (Text × Text)) (available : Bool) (failure : Option Text) (written : Nat) :
    Keyed.get? (redisAfterPut F redis available record failure written) (redisProjectionKey key) =
      Keyed.get? redis (redisProjectionKey key) := by
  have writes : ∀ write ∈ redisWrites F record, write.1 ≠ redisProjectionKey key := by
    intro write among
    rcases List.mem_cons.mp among with rfl | latest
    · exact apart
    · rw [List.mem_singleton.mp latest]
      exact redisLatestKey_ne hex _ _
  unfold redisAfterPut
  split_ifs
  · exact get?_setValues writes
  · exact get?_setValues fun write among => writes write (List.mem_of_mem_take among)
  · rfl

theorem get?_redisAfterPut_own [Interpreter] (hex : Hexadecimal) (record : ProjectionRecord)
    (redis : List (Text × Text)) (written : Nat) :
    Keyed.get? (redisAfterPut F redis true record none written) (redisProjectionKey record.key) =
      some (jsonDumps F (recordToPayload record)) := by
  have latest := redisLatestKey_ne hex record.key record.key
  simp only [redisAfterPut, redisWrites, setValues, Option.isNone_none, if_true, List.foldl_cons,
    List.foldl_nil, Keyed.get?_set, if_neg latest]

omit [JsonNumbers F] [Json.FloatRepr F] in
theorem get?_redisWithoutSource (hex : Hexadecimal) (redis : List (Text × Text))
    (namespace_ sourceId : Text) {key : ProjectionKey}
    (current : key.schemaVersion = "projection-store-v1") :
    Keyed.get? (redisWithoutSource redis namespace_ sourceId) (redisProjectionKey key) =
      if safeKeyPart namespace_ = safeKeyPart key.namespace_ ∧
          safeKeyPart sourceId = safeKeyPart key.sourceId then none
      else Keyed.get? redis (redisProjectionKey key) := by
  have latest :=
    (redisLatestKey_ne hex { namespace_, sourceId, projectionSignature := [] } key).symm
  have matched := prefix_redisProjectionKey_iff hex namespace_ sourceId current
  rw [redisWithoutSource, get?_filter_fst redis fun name =>
    !decide (redisSourceProjectionKeyPrefix namespace_ sourceId <+: name) &&
      decide (name ≠ redisLatestKey { namespace_, sourceId, projectionSignature := [] })]
  simp only [matched, latest, ne_eq, not_false_eq_true, decide_true, Bool.and_true,
    Bool.not_eq_true', decide_eq_false_iff_not]
  split_ifs <;> tauto

end Calls

/-! ## What a process keeps under a key -/

section Keeping

variable {F : Type} [JsonNumbers F] [Json.FloatRepr F] [Interpreter] [Hashing] {Process : Type}
  [DecidableEq Process]

variable (F) in
structure Keeps (process : Process) (key : ProjectionKey) (world : World Process)
    (own : Option (Option ProjectionRecord)) : Prop where
  policy : (world.stores process).failFast = false
  memory : Keyed.get? (world.stores process).memoryFallback key = own.join
  redis : (world.stores process).available = true → ∀ kept, own = some kept →
    Keyed.get? world.redis (redisProjectionKey key) =
      kept.map fun record => jsonDumps F (recordToPayload record)
  keyed : ∀ record, own = some (some record) → record.key = key

theorem Keeps.put (hex : Hexadecimal) {process other : Process} {key : ProjectionKey}
    {world : World Process} {own : Option (Option ProjectionRecord)}
    (keeps : Keeps F process key world own) {record : ProjectionRecord} {failure : Option Text}
    {written : Nat} (alone : Alone process key (.put other record failure written)) :
    Keeps F process key (storeStep F world (.put other record failure written))
      (lastStored process key own (.put other record failure written)) := by
  obtain ⟨memory, policy, available⟩ := put_store (F := F) (world.stores process) record failure
  by_cases mine : other = process ∧ record.key = key
  · obtain ⟨rfl, rfl⟩ := mine
    rw [lastStored, if_pos ⟨rfl, rfl⟩]
    constructor
    · simp only [storeStep, Function.update_self, policy, keeps.policy]
    · simp only [storeStep, Function.update_self, memory, Keyed.get?_set, if_true, Option.join_some]
    · simp only [storeStep, Function.update_self]
      intro open_ kept same
      obtain ⟨opened, succeeded⟩ := available open_
      obtain rfl := Option.some.inj same
      rw [opened, succeeded keeps.policy]
      exact get?_redisAfterPut_own hex record world.redis written
    · intro stored same
      rw [← Option.some.inj (Option.some.inj same)]
  · rw [lastStored, if_neg mine]
    have apart : redisProjectionKey record.key ≠ redisProjectionKey key := fun same =>
      mine (alone same)
    have unchanged := get?_redisAfterPut (F := F) hex apart world.redis
      (world.stores other).available failure written
    by_cases same : other = process
    · subst same
      have different : record.key ≠ key := fun same => mine ⟨rfl, same⟩
      constructor
      · simp only [storeStep, Function.update_self, policy, keeps.policy]
      · simp only [storeStep, Function.update_self, memory, Keyed.get?_set, if_neg different,
          keeps.memory]
      · simp only [storeStep, Function.update_self, unchanged]
        exact fun open_ => keeps.redis (available open_).1
      · exact keeps.keyed
    · have kept : (storeStep F world (.put other record failure written)).stores process =
          world.stores process := Function.update_of_ne (Ne.symm same) _ _
      constructor
      · rw [kept]
        exact keeps.policy
      · rw [kept]
        exact keeps.memory
      · rw [kept]
        simp only [storeStep, unchanged]
        exact keeps.redis
      · exact keeps.keyed

theorem Keeps.invalidateSource (hex : Hexadecimal) {process other : Process} {key : ProjectionKey}
    (current : key.schemaVersion = "projection-store-v1") {world : World Process}
    {own : Option (Option ProjectionRecord)} (keeps : Keeps F process key world own)
    {namespace_ sourceId : Text} {failure : Option Text} {deleted : Bool}
    (alone : Alone process key (.invalidateSource other namespace_ sourceId failure deleted)) :
    Keeps F process key
      (storeStep F world (.invalidateSource other namespace_ sourceId failure deleted))
      (lastStored process key own
        (.invalidateSource other namespace_ sourceId failure deleted)) := by
  obtain ⟨memory, policy, available⟩ :=
    invalidateSource_store (world.stores process) namespace_ sourceId failure
  have left := get?_redisWithoutSource hex world.redis namespace_ sourceId current
  have filtered := get?_filter_fst (world.stores process).memoryFallback
    (fun stored => stored.namespace_ ≠ namespace_ || stored.sourceId ≠ sourceId) key
  by_cases mine : other = process ∧ namespace_ = key.namespace_ ∧ sourceId = key.sourceId
  · rw [lastStored, if_pos mine]
    obtain ⟨rfl, rfl, rfl⟩ := mine
    constructor
    · simp only [storeStep, Function.update_self, policy, keeps.policy]
    · simp only [storeStep, Function.update_self, memory, filtered, ne_eq, not_true_eq_false,
        decide_false, Bool.or_self, Bool.false_eq_true, if_false, Option.join_some]
    · simp only [storeStep, Function.update_self]
      intro open_ kept same
      obtain ⟨opened, succeeded⟩ := available open_
      obtain rfl := Option.some.inj same
      simp only [opened, succeeded keeps.policy, Option.isNone_none, Bool.true_or, Bool.and_self,
        if_true, left, and_self, Option.map_none]
    · intro stored same
      cases Option.some.inj same
  · rw [lastStored, if_neg mine]
    have unmatched : ¬(safeKeyPart namespace_ = safeKeyPart key.namespace_ ∧
        safeKeyPart sourceId = safeKeyPart key.sourceId) := fun matched =>
      mine (alone matched.1 matched.2)
    rw [if_neg unmatched] at left
    have unchanged : Keyed.get?
        (storeStep F world (.invalidateSource other namespace_ sourceId failure deleted)).redis
          (redisProjectionKey key) = Keyed.get? world.redis (redisProjectionKey key) := by
      simp only [storeStep]
      split_ifs
      · exact left
      · rfl
    by_cases same : other = process
    · subst same
      have elsewhere : (decide (key.namespace_ ≠ namespace_) ||
          decide (key.sourceId ≠ sourceId)) = true := by
        by_contra both
        simp only [ne_eq, decide_not, Bool.or_eq_true, Bool.not_eq_true', decide_eq_false_iff_not,
          not_or, not_not] at both
        exact mine ⟨rfl, both.1.symm, both.2.symm⟩
      rw [if_pos elsewhere] at filtered
      constructor
      · simp only [storeStep, Function.update_self, policy, keeps.policy]
      · simp only [storeStep, Function.update_self, memory, filtered, keeps.memory]
      · rw [unchanged]
        simp only [storeStep, Function.update_self]
        exact fun open_ => keeps.redis (available open_).1
      · exact keeps.keyed
    · have kept : (storeStep F world
          (.invalidateSource other namespace_ sourceId failure deleted)).stores process =
            world.stores process := Function.update_of_ne (Ne.symm same) _ _
      constructor
      · rw [kept]
        exact keeps.policy
      · rw [kept]
        exact keeps.memory
      · rw [kept, unchanged]
        exact keeps.redis
      · exact keeps.keyed

theorem Keeps.get {process other : Process} {key : ProjectionKey} {world : World Process}
    {own : Option (Option ProjectionRecord)} (keeps : Keeps F process key world own)
    (wanted : ProjectionKey) (root : List Text) (failure : Option Text) :
    Keeps F process key (storeStep F world (.get other wanted root failure)) own := by
  by_cases same : other = process
  · subst same
    obtain ⟨memory, policy, available⟩ :=
      get_store (F := F) (world.stores other) (clientOf world.redis failure) wanted root
    constructor
    · simp only [storeStep, Function.update_self, policy, keeps.policy]
    · simp only [storeStep, Function.update_self, memory, keeps.memory]
    · simp only [storeStep, Function.update_self]
      exact fun open_ => keeps.redis (available open_)
    · exact keeps.keyed
  · have kept : (storeStep F world (.get other wanted root failure)).stores process =
        world.stores process := Function.update_of_ne (Ne.symm same) _ _
    constructor
    · rw [kept]
      exact keeps.policy
    · rw [kept]
      exact keeps.memory
    · rw [kept]
      exact keeps.redis
    · exact keeps.keyed

theorem Keeps.drop {process : Process} {key : ProjectionKey} {world : World Process}
    {own : Option (Option ProjectionRecord)} (keeps : Keeps F process key world own) {name : Text}
    (other : name ≠ redisProjectionKey key) :
    Keeps F process key (storeStep F world (.drop name)) own := by
  have left := get?_filter_fst world.redis (fun stored => stored ≠ name) (redisProjectionKey key)
  rw [if_pos (decide_eq_true other.symm)] at left
  constructor
  · exact keeps.policy
  · exact keeps.memory
  · simp only [storeStep, left]
    exact keeps.redis
  · exact keeps.keyed

theorem Keeps.run (hex : Hexadecimal) {process : Process} {key : ProjectionKey}
    (current : key.schemaVersion = "projection-store-v1") {events : List (StoreEvent Process)}
    (alone : ∀ event ∈ events, Alone process key event) {world : World Process}
    {own : Option (Option ProjectionRecord)} (keeps : Keeps F process key world own) :
    Keeps F process key (storeRun F world events) (events.foldl (lastStored process key) own) := by
  induction events generalizing world own with
  | nil => exact keeps
  | cons event events inductionHypothesis =>
      obtain ⟨here, later⟩ := List.forall_mem_cons.mp alone
      refine inductionHypothesis later ?_
      cases event with
      | put => exact keeps.put hex here
      | invalidateSource => exact keeps.invalidateSource hex current here
      | get _ wanted root failure => exact keeps.get wanted root failure
      | drop => exact keeps.drop here

end Keeping

/-! ## What is read -/

section Reading

/-- A record whose pages and whose graph JSON can hold. -/
structure Storable (record : ProjectionRecord) : Prop where
  metadata : JsonMetadata record.index.metadata
  counts : ∀ page ∈ record.index.pages, Counted page
  pages : ∀ page ∈ record.index.pages, Representable page
  items : JsonItems ⟨record.index.nodes, record.index.edges⟩

theorem storable_projectWiki [Unicode] [Interpreter] [Documents] [Host] {profile : SourceProfile}
    {tree : FileTree} {loaded : LoadedWiki} (succeeded : loadWiki profile tree = .ok loaded)
    (representable : ∀ page ∈ loaded.pages, Representable page)
    (finite : ∀ fact ∈ loaded.sidecarGraphEdges, ConfidenceFinite fact) (key : ProjectionKey) :
    Storable ⟨key, projectWiki loaded⟩ := by
  have sound := loadWiki_sound succeeded
  have counts : ∀ page ∈ loaded.pages, CountsFinite page := fun page pageIn =>
    countsFinite_of_representable (sound.pages page pageIn) (representable page pageIn)
  exact ⟨sound.metadata, sound.pages, representable, projectWiki_json sound.metadata counts finite⟩

variable {F : Type} [JsonNumbers F] [Json.FloatRepr F] [Unicode] [Interpreter] [Hashing]
  {Process : Type} [DecidableEq Process]

variable (F) in
theorem Storable.roundTrips {record : ProjectionRecord} (storable : Storable record)
    (root : List Text) : RoundTrips F record root :=
  roundTrips_of_json storable.metadata storable.counts storable.pages storable.items root

omit [Interpreter] [Hashing] in
theorem SamePage.refl (page : WikiPage) : SamePage page page := by
  constructor <;> rfl

omit [Interpreter] [Hashing] in
theorem SameIndex.refl (index : WikiIndex) : SameIndex index index := by
  constructor
  case pages => exact List.forall₂_same.mpr fun page _ => SamePage.refl page
  all_goals rfl

omit [Unicode] [Interpreter] in
/-- Without an answer of Redis the dictionary is read. -/
theorem get_fallback {store : RedisProjectionStore} {client : Text → Except Text (Option Text)}
    {key : ProjectionKey} (root : List Text) (policy : store.failFast = false)
    (unanswered : store.available = true →
      ∃ message, client (redisProjectionKey key) = .error message) :
    (store.get F client key root).1 = .ok (Keyed.get? store.memoryFallback key) := by
  unfold RedisProjectionStore.get
  cases available : store.available with
  | false => rfl
  | true =>
      obtain ⟨message, failed⟩ := unanswered available
      simp only [failed, policy, Bool.not_true, Bool.false_eq_true, if_false]

omit [DecidableEq Process] in
theorem Keeps.read {process : Process} {key : ProjectionKey} {world : World Process}
    {kept : Option ProjectionRecord} (keeps : Keeps F process key world (some kept))
    (storable : ∀ record ∈ kept, Storable record) (root : List Text) (failure : Option Text) :
    ∃ found, world.read F process key root failure = .ok found ∧
      Option.Rel (fun record other => other.key = key ∧ SameIndex record.index other.index)
        kept found := by
  have own : Option.Rel (fun record other : ProjectionRecord =>
      other.key = key ∧ SameIndex record.index other.index) kept kept := by
    cases kept with
    | none => exact .none
    | some record => exact .some ⟨keeps.keyed record rfl, SameIndex.refl _⟩
  by_cases answered : (world.stores process).available = true ∧ failure = none
  · obtain ⟨available, rfl⟩ := answered
    have held : clientOf world.redis none (redisProjectionKey key) =
        .ok (kept.map fun record => jsonDumps F (recordToPayload record)) :=
      congrArg Except.ok (keeps.redis available kept rfl)
    cases kept with
    | none =>
        refine ⟨none, ?_, .none⟩
        unfold World.read RedisProjectionStore.get
        simp only [available, held, Option.map_none, Bool.not_true, Bool.false_eq_true, if_false]
    | some record =>
        obtain rfl := keeps.keyed record rfl
        obtain ⟨index, read, same⟩ := ((storable record rfl).roundTrips F root).fetched
          (world.stores process) _ available held
        exact ⟨_, read, .some ⟨rfl, same⟩⟩
  · refine ⟨kept, ?_, own⟩
    rw [World.read, get_fallback root keeps.policy, keeps.memory]
    · rfl
    · intro available
      cases failure with
      | none => exact absurd ⟨available, rfl⟩ answered
      | some message => exact ⟨message, rfl⟩

def storedRecords (events : List (StoreEvent Process)) : List ProjectionRecord :=
  events.filterMap fun
    | .put _ record _ _ => some record
    | _ => none

omit [JsonNumbers F] [Json.FloatRepr F] [Unicode] [Interpreter] [Hashing] in
theorem lastStored_mem {process : Process} {key : ProjectionKey}
    {events : List (StoreEvent Process)} {own : Option (Option ProjectionRecord)}
    {record : ProjectionRecord}
    (last : events.foldl (lastStored process key) own = some (some record)) :
    own = some (some record) ∨ record ∈ storedRecords events := by
  induction events generalizing own with
  | nil => exact .inl last
  | cons event events inductionHypothesis =>
      rw [List.foldl_cons] at last
      rcases inductionHypothesis last with here | later
      · cases event with
        | put other stored failure written =>
            rw [lastStored] at here
            split_ifs at here
            · obtain rfl := Option.some.inj (Option.some.inj here)
              exact .inr List.mem_cons_self
            · exact .inl here
        | invalidateSource other namespace_ sourceId failure deleted =>
            rw [lastStored] at here
            split_ifs at here
            · cases Option.some.inj here
            · exact .inl here
        | get => exact .inl here
        | drop => exact .inl here
      · refine .inr ?_
        unfold storedRecords at later ⊢
        rw [List.filterMap_cons]
        split
        · exact later
        · exact List.mem_cons_of_mem _ later

/-- Whatever fails and whatever other processes do elsewhere, a process that is alone with a key
reads what it stored there last, with the same graph and pages that say the same, and nothing once
it invalidated the source. -/
theorem store_reads_own_writes (hex : Hexadecimal) {process : Process} {key : ProjectionKey}
    (current : key.schemaVersion = "projection-store-v1") {events : List (StoreEvent Process)}
    (alone : ∀ event ∈ events, Alone process key event)
    (storable : ∀ record ∈ storedRecords events, Storable record) {world : World Process}
    (policy : (world.stores process).failFast = false)
    (fresh : (world.stores process).memoryFallback = []) {kept : Option ProjectionRecord}
    (last : events.foldl (lastStored process key) none = some kept) (root : List Text)
    (failure : Option Text) :
    ∃ found, (storeRun F world events).read F process key root failure = .ok found ∧
      Option.Rel (fun record other => other.key = key ∧ SameIndex record.index other.index)
        kept found := by
  have start : Keeps F process key world none := by
    constructor
    · exact policy
    · rw [fresh]
      rfl
    · intro _ kept same
      cases same
    · intro record same
      cases same
  have keeps := start.run hex current alone
  rw [last] at keeps
  refine keeps.read ?_ root failure
  rintro record rfl
  rcases lastStored_mem last with initially | among
  · cases initially
  · exact storable record among

/-! ## Nothing else is read -/

variable (F) in
/-- Redis has texts of the stored records under their names, and the dictionaries have those records
under their keys. -/
structure StoredOnly (stored : List ProjectionRecord) (world : World Process) : Prop where
  redis : ∀ entry ∈ world.redis,
    (∃ record ∈ stored, entry =
      (redisProjectionKey record.key, jsonDumps F (recordToPayload record))) ∨
    ∃ key, entry.1 = redisLatestKey key
  memory : ∀ process, ∀ entry ∈ (world.stores process).memoryFallback,
    entry.2 ∈ stored ∧ entry.2.key = entry.1

omit [JsonNumbers F] [Json.FloatRepr F] [Unicode] [Interpreter] [Hashing] [DecidableEq Process] in
theorem mem_setValues {redis writes : List (Text × Text)} {entry : Text × Text}
    (among : entry ∈ setValues redis writes) : entry ∈ writes ∨ entry ∈ redis := by
  induction writes generalizing redis with
  | nil => exact .inr among
  | cons write writes inductionHypothesis =>
      rw [setValues, List.foldl_cons] at among
      rcases inductionHypothesis among with later | before
      · exact .inl (List.mem_cons_of_mem _ later)
      · rcases Keyed.mem_set before with rfl | before
        · exact .inl List.mem_cons_self
        · exact .inr before

omit [Unicode] [DecidableEq Process] in
theorem mem_redisAfterPut {redis : List (Text × Text)} {available : Bool}
    {record : ProjectionRecord} {failure : Option Text} {written : Nat} {entry : Text × Text}
    (among : entry ∈ redisAfterPut F redis available record failure written) :
    entry ∈ redisWrites F record ∨ entry ∈ redis := by
  unfold redisAfterPut at among
  split_ifs at among
  · exact mem_setValues among
  · exact (mem_setValues among).imp_left List.mem_of_mem_take
  · exact .inr among

omit [JsonNumbers F] [Json.FloatRepr F] [Unicode] [Interpreter] [Hashing] in
/-- A property of the dictionaries is kept when it is kept in that of the process that steps. -/
theorem forall_update {stores : Process → RedisProjectionStore}
    (property : RedisProjectionStore → Prop) (before : ∀ process, property (stores process))
    (process : Process) {store : RedisProjectionStore} (after : property store) (other : Process) :
    property (Function.update stores process store other) := by
  by_cases same : other = process
  · subst same
    rwa [Function.update_self]
  · rw [Function.update_of_ne same]
    exact before other

omit [Unicode] in
theorem StoredOnly.step {stored : List ProjectionRecord} {world : World Process}
    (sound : StoredOnly F stored world) {event : StoreEvent Process}
    (known : ∀ record ∈ storedRecords [event], record ∈ stored) :
    StoredOnly F stored (storeStep F world event) := by
  have keep {process : Process} {store : RedisProjectionStore}
      (after : ∀ entry ∈ store.memoryFallback, entry.2 ∈ stored ∧ entry.2.key = entry.1) :=
    forall_update (fun store => ∀ entry ∈ store.memoryFallback,
      entry.2 ∈ stored ∧ entry.2.key = entry.1) sound.memory process after
  cases event with
  | put process record failure written =>
      have among : record ∈ stored := known record List.mem_cons_self
      constructor
      · intro entry entryIn
        rcases mem_redisAfterPut entryIn with new | before
        · rcases List.mem_cons.mp new with rfl | latest
          · exact .inl ⟨record, among, rfl⟩
          · exact .inr ⟨record.key, congrArg Prod.fst (List.mem_singleton.mp latest)⟩
        · exact sound.redis entry before
      · refine keep ?_
        rw [(put_store (F := F) (world.stores process) record failure).1]
        intro entry entryIn
        rcases Keyed.mem_set entryIn with rfl | before
        · exact ⟨among, rfl⟩
        · exact sound.memory process entry before
  | invalidateSource process namespace_ sourceId failure deleted =>
      constructor
      · intro entry entryIn
        simp only [storeStep] at entryIn
        split_ifs at entryIn
        · exact sound.redis entry (List.mem_of_mem_filter entryIn)
        · exact sound.redis entry entryIn
      · refine keep ?_
        rw [(invalidateSource_store (world.stores process) namespace_ sourceId failure).1]
        intro entry entryIn
        exact sound.memory process entry (List.mem_of_mem_filter entryIn)
  | get process key root failure =>
      refine ⟨sound.redis, keep ?_⟩
      rw [(get_store (F := F) (world.stores process) (clientOf world.redis failure) key root).1]
      exact sound.memory process
  | drop name =>
      refine ⟨fun entry entryIn => ?_, sound.memory⟩
      exact sound.redis entry (List.mem_of_mem_filter entryIn)

omit [Unicode] in
theorem StoredOnly.run {stored : List ProjectionRecord} {events : List (StoreEvent Process)}
    {world : World Process} (sound : StoredOnly F stored world)
    (known : ∀ record ∈ storedRecords events, record ∈ stored) :
    StoredOnly F stored (storeRun F world events) := by
  induction events generalizing world with
  | nil => exact sound
  | cons event events inductionHypothesis =>
      have parts : storedRecords (event :: events) =
          storedRecords [event] ++ storedRecords events := by
        rw [storedRecords, ← List.singleton_append, List.filterMap_append]
        rfl
      rw [parts, List.forall_mem_append] at known
      exact inductionHypothesis (sound.step known.1) known.2

omit [Unicode] [Interpreter] in
/-- What is read without an answer of Redis is of the dictionary. -/
theorem get_unanswered {store : RedisProjectionStore} {client : Text → Except Text (Option Text)}
    {key : ProjectionKey} {root : List Text} {found : Option ProjectionRecord}
    (unanswered : store.available = true →
      ∃ message, client (redisProjectionKey key) = .error message)
    (read : (store.get F client key root).1 = .ok found) :
    found = Keyed.get? store.memoryFallback key := by
  unfold RedisProjectionStore.get at read
  cases available : store.available with
  | false =>
      rw [available] at read
      exact (Except.ok.inj read).symm
  | true =>
      obtain ⟨message, failed⟩ := unanswered available
      simp only [available, failed, Bool.not_true, Bool.false_eq_true, if_false] at read
      split at read
      · cases read
      · exact (Except.ok.inj read).symm

/-- Whatever fails and however the keys of the processes meet, a process reads under a key a record
that was stored under that key, with the same graph and pages that say the same. -/
theorem store_serves_only_stored (hex : Hexadecimal) {events : List (StoreEvent Process)}
    (storable : ∀ record ∈ storedRecords events, Storable record) {world : World Process}
    (empty : world.redis = []) (fresh : ∀ process, (world.stores process).memoryFallback = [])
    {process : Process} {key : ProjectionKey} {root : List Text} {failure : Option Text}
    {found : ProjectionRecord}
    (read : (storeRun F world events).read F process key root failure = .ok (some found)) :
    found.key = key ∧
      ∃ record ∈ storedRecords events, record.key = key ∧ SameIndex record.index found.index := by
  have start : StoredOnly F (storedRecords events) world := by
    constructor
    · rw [empty]
      exact fun entry among => absurd among List.not_mem_nil
    · intro process
      rw [fresh process]
      exact fun entry among => absurd among List.not_mem_nil
  have sound := start.run fun _ among => among
  generalize storeRun F world events = world at read sound
  by_cases answered : (world.stores process).available = true ∧ failure = none
  · obtain ⟨available, rfl⟩ := answered
    rw [World.read] at read
    cases held : Keyed.get? world.redis (redisProjectionKey key) with
    | none =>
        have answer : clientOf world.redis none (redisProjectionKey key) = .ok none :=
          congrArg Except.ok held
        simp [RedisProjectionStore.get, available, answer] at read
    | some raw =>
        have answer : clientOf world.redis none (redisProjectionKey key) = .ok (some raw) :=
          congrArg Except.ok held
        rcases sound.redis _ (Keyed.mem_of_get? held) with ⟨record, among, same⟩ | ⟨other, latest⟩
        · obtain ⟨-, rfl⟩ := Prod.mk.inj same
          have trips := (storable record among).roundTrips F root
          by_cases own : key = record.key
          · subst own
            obtain ⟨index, got, sameIndex⟩ := trips.fetched _ _ available answer
            obtain rfl := Option.some.inj (Except.ok.inj (got.symm.trans read))
            exact ⟨rfl, record, among, rfl, sameIndex⟩
          · have nothing := trips.notFetched _ _ available key own answer
            cases Except.ok.inj (nothing.symm.trans read)
        · exact absurd latest.symm (redisLatestKey_ne hex other key)
  · have kept := get_unanswered (fun available => ?_) read
    · obtain ⟨among, keyed⟩ := sound.memory process _ (Keyed.mem_of_get? kept.symm)
      exact ⟨keyed, found, among, keyed, SameIndex.refl _⟩
    · cases failure with
      | none => exact absurd ⟨available, rfl⟩ answered
      | some message => exact ⟨message, rfl⟩

end Reading

section Sample

open ManagedContext

@[reducible]
def zeroHashing : Hashing where
  blake2b _ := []
  sha256 _ := List.replicate 64 '0'

attribute [local instance] Unicode.ascii Value.plainInterpreter sampleFloats samplePayloadNumbers
  zeroHashing

theorem hexadecimal_zeros : Hexadecimal := by
  intro text char among
  rw [List.eq_of_mem_replicate among]
  rfl

def plainKey : ProjectionKey where
  namespace_ := "default"
  sourceId := "wiki"
  projectionSignature := "sig-1"

def titledPage (title : Text) : WikiPage :=
  { id := "home", title, path := "home.md", role := .topic, text := "Home.", tags := ["start"] }

/-- The record of a wiki with a tagged page. -/
def titledRecord (title : Text) : ProjectionRecord where
  key := plainKey
  index :=
    { root := ["srv"], title, description := [], pages := [titledPage title]
      nodes := [⟨"page:home", title, "topic", "home.md", []⟩,
        ⟨"tag:start", "start", "tag", "home.md", []⟩]
      edges := [⟨"page:home", "tag:start", "tagged", []⟩]
      adapter := "generic-markdown", implementation := "llmwiki-serve", metadata := [] }

theorem representable_titledPage (title : Text) : Representable (titledPage title) where
  distinct := List.nodup_nil
  values _ among := absurd among List.not_mem_nil
  counts _ described := nomatch described

theorem storable_titledRecord (title : Text) : Storable (titledRecord title) where
  metadata := jsonMetadata_nil
  counts page among := by
    obtain rfl := List.mem_singleton.mp among
    exact fun _ described => nomatch described
  pages page among := by
    obtain rfl := List.mem_singleton.mp among
    exact representable_titledPage title
  items := by
    constructor
    · intro node among
      simp only [titledRecord, List.mem_cons, List.not_mem_nil, or_false] at among
      rcases among with rfl | rfl <;> exact jsonMetadata_nil
    · intro edge among
      obtain rfl := List.mem_singleton.mp among
      exact jsonMetadata_nil

def freshWorld : World Bool where
  redis := []
  stores _ := {}

/-- A second put fails after the first of its values was set. -/
def failingPut : List (StoreEvent Bool) :=
  [.put true (titledRecord "Wiki") none 0, .invalidateSource false "other" "wiki" none false,
    .put true (titledRecord "Renamed") (some "ConnectionError: backend operation failed") 1]

theorem storable_failingPut : ∀ record ∈ storedRecords failingPut, Storable record := by
  intro record among
  rcases List.mem_cons.mp among with rfl | later
  · exact storable_titledRecord _
  · rw [List.mem_singleton.mp later]
    exact storable_titledRecord _

theorem store_reads_own_writes_failingPut :
    ∃ found, (storeRun PyFloat freshWorld failingPut).read PyFloat true plainKey ["srv"] none =
        .ok found ∧
      Option.Rel (fun record other => other.key = plainKey ∧ SameIndex record.index other.index)
        (some (titledRecord "Renamed")) found := by
  refine store_reads_own_writes hexadecimal_zeros rfl ?_ storable_failingPut rfl rfl rfl _ _
  intro event among
  simp only [failingPut, List.mem_cons, List.not_mem_nil, or_false] at among
  rcases among with rfl | rfl | rfl
  · exact fun _ => ⟨rfl, rfl⟩
  · exact fun same => absurd same (by decide)
  · exact fun _ => ⟨rfl, rfl⟩

theorem store_serves_only_stored_failingPut : (titledRecord "Renamed").key = plainKey ∧
    ∃ record ∈ storedRecords failingPut, record.key = plainKey ∧
      SameIndex record.index (titledRecord "Renamed").index := by
  have read : (storeRun PyFloat freshWorld failingPut).read PyFloat true plainKey ["srv"] none =
      .ok (some (titledRecord "Renamed")) := rfl
  exact store_serves_only_stored hexadecimal_zeros storable_failingPut rfl (fun _ => rfl) read

end Sample

end LlmWikiServe.ProjectionPayload
