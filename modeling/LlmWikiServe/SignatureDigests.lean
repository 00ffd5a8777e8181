import LlmWikiServe.Foundation.Lines
import LlmWikiServe.SignedFiles

/-!
# Digests of signatures

The text a projection digest is taken of has a line for each state, its fields separated by tabs.
Fields are read back from the right; the lines are read back where a path has no newline.
-/

namespace LlmWikiServe

/-- What the projection digest is to tell of a state. -/
def PathState.signedFields (state : PathState) : Text × PathKind × Nat × Text :=
  (RelPath.asPosix state.relativePath, state.kind, state.size, state.digest)

/-- The digest of the state is empty or written in hexadecimal, as `_path_state` takes it. -/
def PathState.Hexadecimal (state : PathState) : Prop :=
  ∀ digit ∈ state.digest, digit ∈ ("0123456789abcdef" : Text)

instance (state : PathState) : Decidable state.Hexadecimal :=
  inferInstanceAs (Decidable (∀ digit ∈ state.digest, digit ∈ ("0123456789abcdef" : Text)))

def PathState.newlines (state : PathState) : Nat :=
  (RelPath.asPosix state.relativePath).count '\n'

theorem PathState.Hexadecimal.free {state : PathState} (hexadecimal : state.Hexadecimal)
    {char : Char} (other : char ∉ ("0123456789abcdef" : Text)) : char ∉ state.digest :=
  fun member => other (hexadecimal char member)

theorem signedFields_eq {first second : PathState} (firstDigest : first.Hexadecimal)
    (secondDigest : second.Hexadecimal) (same : first.digestLine = second.digestLine) :
    first.signedFields = second.signedFields := by
  obtain ⟨paths, kinds, sizes, digests⟩ :=
    digestLine_fields (firstDigest.free (by decide)) (secondDigest.free (by decide)) same
  simp only [PathState.signedFields, Prod.mk.injEq]
  exact ⟨paths, kinds, sizes, digests⟩

theorem map_signedFields {first second : List PathState}
    (firstDigests : ∀ state ∈ first, state.Hexadecimal)
    (secondDigests : ∀ state ∈ second, state.Hexadecimal)
    (lines : first.map PathState.digestLine = second.map PathState.digestLine) :
    first.map PathState.signedFields = second.map PathState.signedFields := by
  induction first generalizing second with
  | nil => rw [List.map_eq_nil_iff.mp lines.symm]
  | cons state rest inductionHypothesis =>
      cases second with
      | nil => cases lines
      | cons other others =>
          rw [List.forall_mem_cons] at firstDigests secondDigests
          obtain ⟨line, restLines⟩ := List.cons.inj lines
          rw [List.map_cons, List.map_cons,
            signedFields_eq firstDigests.1 secondDigests.1 line,
            inductionHypothesis firstDigests.2 secondDigests.2 restLines]

theorem digestLine_count {state : PathState} (hexadecimal : state.Hexadecimal) :
    state.digestLine.count '\n' = state.newlines := by
  have kind : state.kind.text.count '\n' = 0 := by
    cases state.kind <;> rfl
  have size : (Text.ofNat state.size).count '\n' = 0 :=
    List.count_eq_zero.mpr (not_mem_ofNat (by decide) _)
  have digest : state.digest.count '\n' = 0 :=
    List.count_eq_zero.mpr (hexadecimal.free (by decide))
  rw [PathState.digestLine_eq]
  simp [PathState.newlines, List.count_append, kind, size, digest]

theorem hexadecimal_of_walk [Unicode] [Hashing] [Host] {tree : FileTree} (linkless : tree.Linkless)
    (hexadecimal : ∀ content, ∀ digit ∈ Hashing.blake2b content,
      digit ∈ ("0123456789abcdef" : Text))
    {state : PathState}
    (recorded : state ∈ (sourceSignatureSnapshot rootName tree).projectionSignature) :
    state.Hexadecimal := by
  obtain ⟨path, stat, content, -, -, rfl⟩ | ⟨name, stat, children, -, -, rfl⟩ :=
    (mem_projectionSignature linkless).mp recorded
  · exact hexadecimal content
  · exact fun digit member => absurd member List.not_mem_nil

section Digests

variable [Hashing]

theorem lines_of_projectionSignatureDigest (injective : Function.Injective Hashing.sha256)
    {first second : List PathState}
    (same : projectionSignatureDigest first = projectionSignatureDigest second) :
    Text.join "\n" (first.map PathState.digestLine) =
      Text.join "\n" (second.map PathState.digestLine) := by
  unfold projectionSignatureDigest at same
  split at same
  next empty =>
    split at same
    next empty' => rw [empty, empty']
    next => cases same
  next =>
    split at same
    next => cases same
    next => exact injective (List.append_cancel_left same)

/-- Signatures of the same digest agree where no path has a newline. -/
theorem signedFields_of_digest (injective : Function.Injective Hashing.sha256)
    {first second : List PathState} (firstDigests : ∀ state ∈ first, state.Hexadecimal)
    (secondDigests : ∀ state ∈ second, state.Hexadecimal)
    (firstLines : ∀ state ∈ first, state.newlines = 0)
    (secondLines : ∀ state ∈ second, state.newlines = 0)
    (same : projectionSignatureDigest first = projectionSignatureDigest second) :
    first.map PathState.signedFields = second.map PathState.signedFields := by
  have free : ∀ states : List PathState, (∀ state ∈ states, state.Hexadecimal) →
      (∀ state ∈ states, state.newlines = 0) →
      ∀ line ∈ states.map PathState.digestLine, '\n' ∉ line := by
    intro states digests none line member
    obtain ⟨state, recorded, rfl⟩ := List.mem_map.mp member
    rw [← List.count_eq_zero, digestLine_count (digests state recorded)]
    exact none state recorded
  apply map_signedFields firstDigests secondDigests
  by_cases empty : first = []
  · subst empty
    have nothing : second = [] := by
      by_contra nonempty
      rw [projectionSignatureDigest, projectionSignatureDigest, if_pos rfl, if_neg nonempty] at same
      cases same
    rw [nothing]
  · have nonempty : second ≠ [] := by
      rintro rfl
      rw [projectionSignatureDigest, projectionSignatureDigest, if_pos rfl, if_neg empty] at same
      cases same
    apply Text.join_injective (free first firstDigests firstLines)
      (free second secondDigests secondLines)
    · simpa using empty
    · simpa using nonempty
    · exact lines_of_projectionSignatureDigest injective same

/-- Signatures of the same digest agree exactly when their paths have, one by one, the same number
of newlines. -/
theorem signedFields_eq_iff_newlines (injective : Function.Injective Hashing.sha256)
    {first second : List PathState} (firstDigests : ∀ state ∈ first, state.Hexadecimal)
    (secondDigests : ∀ state ∈ second, state.Hexadecimal)
    (same : projectionSignatureDigest first = projectionSignatureDigest second) :
    first.map PathState.signedFields = second.map PathState.signedFields ↔
      first.map PathState.newlines = second.map PathState.newlines := by
  constructor
  · intro agree
    have counted : ∀ states : List PathState, states.map PathState.newlines =
        (states.map PathState.signedFields).map fun fields => fields.1.count '\n' := by
      intro states
      rw [List.map_map]
      rfl
    rw [counted, counted, agree]
  · intro counts
    have counted : ∀ states : List PathState, (∀ state ∈ states, state.Hexadecimal) →
        (states.map PathState.digestLine).map (List.count '\n') =
          states.map PathState.newlines := by
      intro states digests
      rw [List.map_map]
      exact List.map_congr_left fun state member => digestLine_count (digests state member)
    apply map_signedFields firstDigests secondDigests
    apply Text.join_newline_injective
    · rw [counted first firstDigests, counted second secondDigests, counts]
    · exact lines_of_projectionSignatureDigest injective same

end Digests

/-! ## A name that holds a line -/

def namedFile (name : Text) (size : Nat) (digest : Text) : PathState :=
  ⟨[name], .file, 0, 0, 0, size, digest⟩

/-- The names in which the line breaks stand tell one file from two with the same digest. -/
theorem signedFields_eq_iff_newlines_single :
    [namedFile "a.md\tfile\t1\t0a\nb.md" 1 "0b"].map PathState.signedFields ≠
      [namedFile "a.md" 1 "0a", namedFile "b.md" 1 "0b"].map PathState.signedFields := by
  refine mt (@signedFields_eq_iff_newlines .transparent Function.injective_id
    [namedFile "a.md\tfile\t1\t0a\nb.md" 1 "0b"]
    [namedFile "a.md" 1 "0a", namedFile "b.md" 1 "0b"] (by decide) (by decide) rfl).mp ?_
  decide

/-- One file whose name holds the line of another, against the two files. -/
theorem projectionSignatureDigest_collides :
    validName "a.md\tfile\t1\t0a\nb.md" ∧
      @projectionSignatureDigest .transparent [namedFile "a.md\tfile\t1\t0a\nb.md" 1 "0b"] =
        @projectionSignatureDigest .transparent
          [namedFile "a.md" 1 "0a", namedFile "b.md" 1 "0b"] ∧
      [namedFile "a.md\tfile\t1\t0a\nb.md" 1 "0b"].map PathState.signedFields ≠
        [namedFile "a.md" 1 "0a", namedFile "b.md" 1 "0b"].map PathState.signedFields := by
  refine ⟨by decide, rfl, ?_⟩
  apply ne_of_apply_ne List.length
  decide

end LlmWikiServe
