import LlmWikiServe.Foundation.Groups
import LlmWikiServe.LogRedaction

/-!
# Served roots in the I/O log

No string of a redacted value names a root, unless a member has the root in its name or the
substitutions themselves put a root together, which only happens to a root that meets a mark.
What is stored under a sensitive name never stays.
-/

namespace LlmWikiServe.IoLog

universe u

open Pattern Rewriting

/-! ## What replacements copy -/

/-- What replacements put behind what they copy. -/
def replacementMarks : List Text :=
  [redaction, localRootRedaction, "[REDACTED_URL]", "Bearer [REDACTED]", "Basic [REDACTED]",
    ": [REDACTED]"]

theorem groupText_of_recorded {pattern : Pattern} {before after : Text} {found : Pattern.Match}
    (matched : matchFrom pattern before after = some found) :
    ∃ stop ∈ run pattern ⟨before, after, []⟩, ∀ index value,
      (stop.groups.find? fun entry => entry.1 = index) = some (index, value) →
        groupText found index = value := by
  obtain ⟨stop, stopIn, rfl⟩ := Option.map_eq_some_iff.mp matched
  refine ⟨stop, List.mem_of_head? stopIn, fun index value recorded => ?_⟩
  rw [groupText, Match.group?, recorded]
  rfl

theorem copies_constant {pattern : Pattern} {text : Text} (known : text ∈ replacementMarks)
    (slash : '/' ∉ text) : Copies replacementMarks (substituting pattern fun _ => text) := by
  intro before after length mark matched
  obtain ⟨found, -, same⟩ := Option.map_eq_some_iff.mp matched
  obtain ⟨-, rfl⟩ := Prod.mk.inj same
  refine ⟨[], text, [], (List.append_nil _).symm, List.nil_prefix, known, ?_⟩
  rw [List.append_nil]
  exact slash

theorem copies_replacing (root : Text) :
    Copies replacementMarks (replacing root localRootRedaction) := by
  intro before after length mark matched
  rw [replacing] at matched
  split_ifs at matched
  obtain ⟨-, rfl⟩ := Prod.mk.inj (Option.some.inj matched)
  exact ⟨[], localRootRedaction, [], rfl, List.nil_prefix, by decide, by decide⟩

theorem copies_querySecret :
    Copies replacementMarks (substituting querySecretPattern fun found =>
      groupText found 1 ++ redaction) := by
  intro before after length mark here
  obtain ⟨found, matched, same⟩ := Option.map_eq_some_iff.mp here
  obtain ⟨-, rfl⟩ := Prod.mk.inj same
  obtain ⟨stop, stopIn, recorded⟩ := groupText_of_recorded matched
  dsimp only
  obtain ⟨name, middle, further, shape, groups⟩ := exists_group (by rfl) stopIn
  have copied : groupText found 1 = name :=
    recorded 1 name (find?_recorded (by decide) further groups)
  refine ⟨name, redaction, [], ?_, ⟨_, shape.symm⟩, by decide, by decide⟩
  rw [copied]
  rfl

theorem copies_quotedSecretAssignment :
    Copies replacementMarks (substituting quotedSecretAssignmentPattern fun found =>
      groupText found 1 ++ redaction ++ groupText found 3) := by
  intro before after length mark here
  obtain ⟨found, matched, same⟩ := Option.map_eq_some_iff.mp here
  obtain ⟨-, rfl⟩ := Prod.mk.inj same
  obtain ⟨stop, stopIn, recorded⟩ := groupText_of_recorded matched
  dsimp only
  obtain ⟨name, middle, further, shape, groups⟩ := exists_group (by rfl) stopIn
  obtain ⟨secret, later, further', -, -⟩ := exists_group (by rfl) further
  obtain ⟨quote, last, isQuote, further'', groups''⟩ := exists_group_one further'
  have copied : groupText found 1 = name :=
    recorded 1 name (find?_recorded (by decide) further groups)
  have closed : groupText found 3 = [quote] :=
    recorded 3 [quote] (find?_recorded (by decide) further'' groups'')
  refine ⟨name, redaction, [quote], ?_, ⟨_, shape.symm⟩, by decide, ?_⟩
  · rw [copied, closed, List.append_assoc]
  · intro inside
    rcases List.mem_append.mp inside with inMark | same
    · exact absurd inMark (by decide)
    · obtain rfl := List.mem_singleton.mp same
      cases isQuote

/-! ## The rewritings of a string -/

section Strings

variable [Unicode]

/-- The rewritings of a string in their order. -/
def redactionFinders (localRoots : List Text) : List Finder :=
  (localRoots.filter (· ≠ [])).map (replacing · localRootRedaction) ++
    substitutions.map fun substitution => substituting substitution.1 substitution.2

theorem redactString_eq_rewriteAll (localRoots : List Text) (text : Text) :
    redactString localRoots text = rewriteAll (redactionFinders localRoots) text := by
  have roots : ∀ text : Text, localRoots.foldl (fun redacted root =>
      if root = [] then redacted else Text.replace root localRootRedaction redacted) text =
        rewriteAll ((localRoots.filter (· ≠ [])).map (replacing · localRootRedaction)) text := by
    induction localRoots with
    | nil => exact fun _ => rfl
    | cons root rest inductionHypothesis =>
        intro text
        rw [List.foldl_cons, inductionHypothesis]
        by_cases empty : root = []
        · simp [empty]
        · simp [empty, rewriteAll, rewrite_replacing]
  have others : ∀ (chosen : List (Pattern × (Pattern.Match → Text))) (text : Text),
      chosen.foldl (fun redacted substitution =>
        Pattern.sub substitution.1 substitution.2 redacted) text =
        rewriteAll (chosen.map fun substitution =>
          substituting substitution.1 substitution.2) text := by
    intro chosen
    induction chosen with
    | nil => exact fun _ => rfl
    | cons substitution rest inductionHypothesis =>
        intro text
        rw [List.foldl_cons, inductionHypothesis, ← rewrite_substituting]
        rfl
  rw [redactString, roots, others, redactionFinders, rewriteAll, rewriteAll, rewriteAll,
    List.foldl_append]

theorem infix_redactString_iff {localRoots : List Text} {root : Text} (among : root ∈ localRoots)
    (nonempty : root ≠ []) (text : Text) :
    root <:+: redactString localRoots text ↔
      BuiltThrough root (redactionFinders localRoots) text := by
  rw [redactString_eq_rewriteAll]
  apply infix_rewriteAll_replaced_iff nonempty
  apply List.mem_append_left
  exact List.mem_map_of_mem (List.mem_filter.mpr ⟨among, by simpa using nonempty⟩)

/-! ## Roots that no substitution builds -/

theorem copies_cookieLine :
    Copies replacementMarks (substituting cookieLinePattern fun found =>
      groupText found 1 ++ (": " : Text) ++ redaction) := by
  intro before after length mark here
  obtain ⟨found, matched, same⟩ := Option.map_eq_some_iff.mp here
  obtain ⟨-, rfl⟩ := Prod.mk.inj same
  obtain ⟨stop, stopIn, recorded⟩ := groupText_of_recorded matched
  dsimp only
  obtain ⟨name, middle, further, shape, groups⟩ := exists_group (by rfl) (mem_run_guard stopIn)
  have copied : groupText found 1 = name :=
    recorded 1 name (find?_recorded (by decide) further groups)
  refine ⟨name, ": [REDACTED]", [], ?_, ⟨_, shape.symm⟩, by decide, by decide⟩
  rw [copied, List.append_assoc]
  rfl

theorem copies_secretAssignment :
    Copies replacementMarks (substituting secretAssignmentPattern fun found =>
      groupText found 1 ++ groupText found 2 ++ redaction) := by
  intro before after length mark here
  obtain ⟨found, matched, same⟩ := Option.map_eq_some_iff.mp here
  obtain ⟨-, rfl⟩ := Prod.mk.inj same
  obtain ⟨stop, stopIn, recorded⟩ := groupText_of_recorded matched
  dsimp only
  obtain ⟨name, middle, further, shape, groups⟩ := exists_group (by rfl) (mem_run_guard stopIn)
  obtain ⟨sign, later, further', shape', groups'⟩ := exists_group (by rfl) further
  have copied : groupText found 1 = name :=
    recorded 1 name (find?_recorded (by decide) further groups)
  have copied' : groupText found 2 = sign :=
    recorded 2 sign (find?_recorded (by decide) further' groups')
  refine ⟨name ++ sign, redaction, [], ?_, ⟨later.after, ?_⟩, by decide, by decide⟩
  · rw [copied, copied']
    rfl
  · rw [List.append_assoc, ← shape', ← shape]

/-- Every rewriting of a string copies the start of a match at most. -/
theorem copies_redactionFinders (localRoots : List Text) :
    ∀ find ∈ redactionFinders localRoots, Copies replacementMarks find := by
  intro find among
  rcases List.mem_append.mp among with replaced | other
  · obtain ⟨root, -, rfl⟩ := List.mem_map.mp replaced
    exact copies_replacing root
  · simp only [substitutions, List.map_cons, List.map_nil, List.mem_cons, List.not_mem_nil,
      or_false] at other
    rcases other with rfl | rfl | rfl | rfl | rfl | rfl | rfl | rfl | rfl | rfl | rfl | rfl
    · exact copies_constant (by decide) (by decide)
    · exact copies_constant (by decide) (by decide)
    · exact copies_cookieLine
    · exact copies_constant (by decide) (by decide)
    · exact copies_constant (by decide) (by decide)
    · exact copies_querySecret
    · exact copies_constant (by decide) (by decide)
    · exact copies_constant (by decide) (by decide)
    · exact copies_constant (by decide) (by decide)
    · exact copies_constant (by decide) (by decide)
    · exact copies_quotedSecretAssignment
    · exact copies_secretAssignment

theorem not_infix_redactString {localRoots : List Text} {root : Text}
    (among : root ∈ localRoots) (absolute : root.head? = some '/')
    (apart : ¬Meets replacementMarks root) (text : Text) :
    ¬root <:+: redactString localRoots text := by
  have nonempty : root ≠ [] := by
    rintro rfl
    cases absolute
  have slash : '/' ∉ localRootRedaction := by decide
  rw [redactString_eq_rewriteAll]
  apply not_infix_rewriteAll (copies_redactionFinders localRoots) apart absolute slash
  apply List.mem_append_left
  exact List.mem_map_of_mem (List.mem_filter.mpr ⟨among, by simpa using nonempty⟩)

example : ¬Meets replacementMarks "/data/wiki" := by decide

example : Meets replacementMarks "/srv/Bearer" := by decide

end Strings

/-! ## The strings of a value -/

section Values

variable {F : Type u}

mutual

def strings : Json F → List Text
  | .string text => [text]
  | .array items => itemStrings items
  | .object members => memberStrings members
  | _ => []
termination_by structural value => value

def itemStrings : List (Json F) → List Text
  | [] => []
  | item :: items => strings item ++ itemStrings items
termination_by structural items => items

def stringsOfMember : Text × Json F → List Text
  | (name, item) => name :: strings item
termination_by structural member => member

def memberStrings : List (Text × Json F) → List Text
  | [] => []
  | member :: members => stringsOfMember member ++ memberStrings members
termination_by structural members => members

end

mutual

def entries : Json F → List (Text × Json F)
  | .array items => itemEntries items
  | .object members => memberEntries members
  | _ => []
termination_by structural value => value

def itemEntries : List (Json F) → List (Text × Json F)
  | [] => []
  | item :: items => entries item ++ itemEntries items
termination_by structural items => items

def entriesOfMember : Text × Json F → List (Text × Json F)
  | (name, item) => (name, item) :: entries item
termination_by structural member => member

def memberEntries : List (Text × Json F) → List (Text × Json F)
  | [] => []
  | member :: members => entriesOfMember member ++ memberEntries members
termination_by structural members => members

end

mutual

def visibleNames : Json F → List Text
  | .array items => visibleItemNames items
  | .object members => visibleMemberNames members
  | _ => []
termination_by structural value => value

def visibleItemNames : List (Json F) → List Text
  | [] => []
  | item :: items => visibleNames item ++ visibleItemNames items
termination_by structural items => items

def visibleNamesOfMember : Text × Json F → List Text
  | (name, item) => name :: if isSensitiveKey name then [] else visibleNames item
termination_by structural member => member

def visibleMemberNames : List (Text × Json F) → List Text
  | [] => []
  | member :: members => visibleNamesOfMember member ++ visibleMemberNames members
termination_by structural members => members

end

mutual

/-- The strings that are values under no sensitive name. -/
def visibleStrings : Json F → List Text
  | .string text => [text]
  | .array items => visibleItemStrings items
  | .object members => visibleMemberStrings members
  | _ => []
termination_by structural value => value

def visibleItemStrings : List (Json F) → List Text
  | [] => []
  | item :: items => visibleStrings item ++ visibleItemStrings items
termination_by structural items => items

def visibleStringsOfMember : Text × Json F → List Text
  | (name, item) => if isSensitiveKey name then [] else visibleStrings item
termination_by structural member => member

def visibleMemberStrings : List (Text × Json F) → List Text
  | [] => []
  | member :: members => visibleStringsOfMember member ++ visibleMemberStrings members
termination_by structural members => members

end

variable [Unicode] {localRoots : List Text} {property : Text → Prop}

mutual

/-- The strings of a redacted value are the visible names, the visible strings in redacted form
and the mark. -/
theorem forall_strings_redactValue (marked : property redaction) (value : Json F) :
    (∀ text ∈ strings (redactValue localRoots value), property text) ↔
      (∀ name ∈ visibleNames value, property name) ∧
        ∀ text ∈ visibleStrings value, property (redactString localRoots text) := by
  match value with
  | .null => simp [redactValue, strings, visibleNames, visibleStrings]
  | .bool _ => simp [redactValue, strings, visibleNames, visibleStrings]
  | .int _ => simp [redactValue, strings, visibleNames, visibleStrings]
  | .float _ => simp [redactValue, strings, visibleNames, visibleStrings]
  | .string _ => simp [redactValue, strings, visibleNames, visibleStrings]
  | .array items => exact forall_strings_redactItems marked items
  | .object members => exact forall_strings_redactMembers marked members
termination_by sizeOf value

theorem forall_strings_redactItems (marked : property redaction) (items : List (Json F)) :
    (∀ text ∈ itemStrings (redactItems localRoots items), property text) ↔
      (∀ name ∈ visibleItemNames items, property name) ∧
        ∀ text ∈ visibleItemStrings items, property (redactString localRoots text) := by
  match items with
  | [] => simp [redactItems, itemStrings, visibleItemNames, visibleItemStrings]
  | item :: items =>
      rw [redactItems, itemStrings, visibleItemNames, visibleItemStrings,
        List.forall_mem_append, List.forall_mem_append, List.forall_mem_append,
        forall_strings_redactValue marked item, forall_strings_redactItems marked items,
        and_and_and_comm]
termination_by sizeOf items

theorem forall_strings_redactMembers (marked : property redaction)
    (members : List (Text × Json F)) :
    (∀ text ∈ memberStrings (redactMembers localRoots members), property text) ↔
      (∀ name ∈ visibleMemberNames members, property name) ∧
        ∀ text ∈ visibleMemberStrings members, property (redactString localRoots text) := by
  match members with
  | [] => simp [redactMembers, memberStrings, visibleMemberNames, visibleMemberStrings]
  | (name, item) :: members =>
      have first : (∀ text ∈ stringsOfMember (redactMember localRoots (name, item)),
          property text) ↔
            (∀ shown ∈ visibleNamesOfMember (name, item), property shown) ∧
              ∀ text ∈ visibleStringsOfMember (name, item),
                property (redactString localRoots text) := by
        have inner := forall_strings_redactValue marked item
        rw [redactMember, stringsOfMember, visibleNamesOfMember, visibleStringsOfMember,
          List.forall_mem_cons, List.forall_mem_cons]
        split_ifs with sensitive
        · simp [strings, marked]
        · rw [inner, and_assoc]
      rw [redactMembers, memberStrings, visibleMemberNames, visibleMemberStrings,
        List.forall_mem_append, List.forall_mem_append, List.forall_mem_append, first,
        forall_strings_redactMembers marked members, and_and_and_comm]
termination_by sizeOf members

end

mutual

/-- What is stored under a sensitive name is the mark. -/
theorem sensitive_redactValue (value : Json F) :
    ∀ entry ∈ entries (redactValue localRoots value), isSensitiveKey entry.1 = true →
      entry.2 = .string redaction := by
  match value with
  | .null => exact nofun
  | .bool _ => exact nofun
  | .int _ => exact nofun
  | .float _ => exact nofun
  | .string _ => exact nofun
  | .array items => exact sensitive_redactItems items
  | .object members => exact sensitive_redactMembers members
termination_by sizeOf value

theorem sensitive_redactItems (items : List (Json F)) :
    ∀ entry ∈ itemEntries (redactItems localRoots items), isSensitiveKey entry.1 = true →
      entry.2 = .string redaction := by
  match items with
  | [] => exact nofun
  | item :: items =>
      rw [redactItems, itemEntries, List.forall_mem_append]
      exact ⟨sensitive_redactValue item, sensitive_redactItems items⟩
termination_by sizeOf items

theorem sensitive_redactMembers (members : List (Text × Json F)) :
    ∀ entry ∈ memberEntries (redactMembers localRoots members), isSensitiveKey entry.1 = true →
      entry.2 = .string redaction := by
  match members with
  | [] => exact nofun
  | (name, item) :: members =>
      have inner := sensitive_redactValue item
      rw [redactMembers, memberEntries, List.forall_mem_append, redactMember, entriesOfMember,
        List.forall_mem_cons]
      refine ⟨⟨fun sensitive => if_pos sensitive, ?_⟩, sensitive_redactMembers members⟩
      split_ifs with sensitive
      · exact nofun
      · exact inner
termination_by sizeOf members

end

/-- A redacted value names no root and stores nothing sensitive, exactly where no visible member
has a root in its name and the substitutions build no root from a visible string, which they can
only do with a root that meets a mark. -/
theorem redactValue_redacts_iff (absolute : ∀ root ∈ localRoots, root.head? = some '/')
    (value : Json F) :
    ((∀ text ∈ strings (redactValue localRoots value), ∀ root ∈ localRoots, ¬root <:+: text) ∧
      ∀ entry ∈ entries (redactValue localRoots value), isSensitiveKey entry.1 = true →
        entry.2 = .string redaction) ↔
    (∀ name ∈ visibleNames value, ∀ root ∈ localRoots, ¬root <:+: name) ∧
      ∀ text ∈ visibleStrings value, ∀ root ∈ localRoots, Meets replacementMarks root →
        ¬BuiltThrough root (redactionFinders localRoots) text := by
  have nonempty : ∀ root ∈ localRoots, root ≠ [] := by
    rintro root among rfl
    cases absolute [] among
  have marked : ∀ root ∈ localRoots, ¬root <:+: redaction := by
    intro root among inside
    have slash := inside.subset (List.mem_of_mem_head? (absolute root among))
    exact absurd slash (by decide)
  have strings_ := @forall_strings_redactValue F _ localRoots
    (fun text => ∀ root ∈ localRoots, ¬root <:+: text) marked value
  rw [and_iff_left (sensitive_redactValue value), strings_]
  refine and_congr_right fun _ => ?_
  constructor
  · intro clean text among root known _ built
    exact clean text among root known
      ((infix_redactString_iff known (nonempty root known) text).mpr built)
  · intro unbuilt text among root known inside
    by_cases meets : Meets replacementMarks root
    · exact unbuilt text among root known meets
        ((infix_redactString_iff known (nonempty root known) text).mp inside)
    · exact not_infix_redactString known (absolute root known) meets text inside

end Values

/-! ## A root in a name -/

section Names

attribute [local instance] Unicode.ascii

/-- A value that has a path of the server for a name. -/
def pathCounts : Json Json.Decimal := .object [("/data/wiki", .int 1)]

/-- A name keeps the root in it, and a string can become a root. -/
theorem root_left_in_name :
    (¬∀ text ∈ strings (redactValue ["/data/wiki"] pathCounts),
      ∀ root ∈ [("/data/wiki" : Text)], ¬root <:+: text) ∧
    ¬∀ text ∈ strings (redactValue ["/srv/Bearer"] (.string "/srv/bearer abc" : Json Json.Decimal)),
      ∀ root ∈ [("/srv/Bearer" : Text)], ¬root <:+: text := by
  constructor
  · intro clean
    exact clean "/data/wiki" List.mem_cons_self _ List.mem_cons_self List.infix_rfl
  · intro clean
    have built : redactString ["/srv/Bearer"] "/srv/bearer abc" =
        ("/srv/Bearer" : Text) ++ " [REDACTED]" := by decide +kernel
    have whole := clean (redactString ["/srv/Bearer"] "/srv/bearer abc") List.mem_cons_self _
      List.mem_cons_self
    rw [built] at whole
    exact whole (List.prefix_append _ _).isInfix

def fileRequest : Json Json.Decimal :=
  .object [("file", .string "/data/wiki/a.md"), ("token", .string "secret")]

theorem redactValue_redacts_iff_fileRequest :
    (∀ text ∈ strings (redactValue ["/data/wiki"] fileRequest),
        ∀ root ∈ [("/data/wiki" : Text)], ¬root <:+: text) ∧
      ∀ entry ∈ entries (redactValue ["/data/wiki"] fileRequest),
        isSensitiveKey entry.1 = true → entry.2 = .string redaction := by
  refine (redactValue_redacts_iff (by decide) fileRequest).mpr ⟨by decide, ?_⟩
  intro text _ root known meets
  obtain rfl := List.mem_singleton.mp known
  exact absurd meets (by decide)

end Names

end LlmWikiServe.IoLog
