import CommentBlock.Proofs.Block

/-!
# Tags that are replaced

Where two comments that are put together hold a single tag of the same kind, the
second one's stays. So the tags of the first leave no trace exactly when none is of
a repeatable kind and the second holds a tag of each of their kinds.

Since the written tags stand behind the description, this decides which lines of
a description do no harm to the tags when a comment is read back.
-/

namespace CommentBlock

namespace Comment

/-- The comment without its description. -/
def onlyTags (comment : Comment) : Comment := { comment with description := [] }

/-- Whether the comment has a tag of the kind. -/
def holds (comment : Comment) : Kind → Bool
  | .var => comment.var.isSome
  | .param => !comment.params.isEmpty
  | .returns => comment.returns.isSome
  | .throws => !comment.throws.isEmpty
  | .author => comment.author.isSome
  | .license => comment.license.isSome
  | .package => comment.package.isSome
  | .access => comment.access.isSome

/-- Whether the tags of the first comment leave no trace when the second one is put
behind it. -/
def IsHiddenBy (first second : Comment) : Prop :=
  (first ++ second).onlyTags = second.onlyTags

/-- Together two comments hold the kinds of both. -/
theorem holds_append (first second : Comment) (kind : Kind) :
    (first ++ second).holds kind = (first.holds kind || second.holds kind) := by
  cases kind with
  | param => cases inFirst : first.params <;> simp [append_eq, append, holds, inFirst]
  | throws => cases inFirst : first.throws <;> simp [append_eq, append, holds, inFirst]
  | _ => simp [append_eq, append, holds, Bool.or_comm]

/-- A single tag is of its kind. -/
theorem holds_insert (tag : Tag) (kind : Kind) :
    (empty.insert tag).holds kind = true ↔ kind = tag.kind := by
  cases tag <;> cases kind <;> simp [empty, insert, holds, Tag.kind]

/-- An earlier single tag leaves no trace exactly when there is none or a later one. -/
theorem or_eq_left_iff {α : Type} (later earlier : Option α) :
    later.or earlier = later ↔ (earlier.isSome = true → later.isSome = true) := by
  cases later <;> simp

/-- Tags leave no trace exactly when each is of a single kind that is held behind. -/
theorem isHiddenBy_iff (first second : Comment) :
    first.IsHiddenBy second ↔
      ∀ kind, first.holds kind = true → kind.isRepeatable = false ∧ second.holds kind = true := by
  simp only [IsHiddenBy, onlyTags, append_eq, append, Comment.mk.injEq, or_eq_left_iff,
    List.append_left_eq_self, true_and]
  constructor
  · rintro ⟨var, returns, package, author, license, access, params, throws⟩ kind
    cases kind <;> simp_all [holds, Kind.isRepeatable]
  · intro covered
    have single : ∀ kind, first.holds kind = true → second.holds kind = true := by
      intro kind found
      exact (covered kind found).2
    have noParams : first.params = [] := by
      simpa [holds, Kind.isRepeatable] using covered .param
    have noThrows : first.throws = [] := by
      simpa [holds, Kind.isRepeatable] using covered .throws
    exact ⟨single .var, single .returns, single .package, single .author, single .license,
      single .access, noParams, noThrows⟩

/-- Two comments are hidden together exactly when each of them is. -/
theorem isHiddenBy_append (first second third : Comment) :
    (first ++ second).IsHiddenBy third ↔ first.IsHiddenBy third ∧ second.IsHiddenBy third := by
  simp only [isHiddenBy_iff, holds_append, Bool.or_eq_true, or_imp]
  exact forall_and

/-- A tag is hidden exactly when it is of a single kind that is held behind. -/
theorem isHiddenBy_insert (tag : Tag) (comment : Comment) :
    (empty.insert tag).IsHiddenBy comment ↔
      tag.kind.isRepeatable = false ∧ comment.holds tag.kind = true := by
  simp only [isHiddenBy_iff, holds_insert, forall_eq]

/-- The written tags are of the kinds that the comment holds, the license kind
excepted. -/
theorem holds_writtenContent (comment : Comment) (kind : Kind) :
    comment.writtenContent.holds kind = true ↔ kind ≠ .license ∧ comment.holds kind = true := by
  cases kind <;> simp [writtenContent, withoutLicense, holds]

/-- Only the description of a comment is different from that of the other comment,
and its license is left out, exactly when its tags are the written ones. -/
theorem eq_describe_iff (comment result : Comment) :
    (∃ lines, result = { comment.withoutLicense with description := lines }) ↔
      result.onlyTags = comment.writtenContent := by
  constructor
  · rintro ⟨lines, rfl⟩
    rfl
  · intro sameTags
    refine ⟨result.description, ?_⟩
    calc result = { result.onlyTags with description := result.description } := rfl
      _ = { comment.writtenContent with description := result.description } := by rw [sameTags]
      _ = { comment.withoutLicense with description := result.description } := rfl

/-- A comment without tags is always hidden. -/
theorem isHiddenBy_of_noTags (comment : Comment) (lines : List Line) :
    ({ description := lines } : Comment).IsHiddenBy comment := by
  rw [isHiddenBy_iff]
  intro kind found
  cases kind <;> simp [holds] at found

/-- Phrases behind stars are hidden together exactly when each of them is. -/
theorem isHiddenBy_ofPhrases (phrases : List Phrase) (comment : Comment) :
    (ofPhrases phrases).IsHiddenBy comment ↔
      ∀ phrase ∈ phrases, (Reading.ofStarred phrase).comment.IsHiddenBy comment := by
  induction phrases with
  | nil => exact iff_of_true (isHiddenBy_of_noTags comment []) (by simp)
  | cons phrase rest inductionHypothesis =>
    rw [ofPhrases, isHiddenBy_append, inductionHypothesis, List.forall_mem_cons]

/-- Whether a line with these words does no harm to the written tags when it stands
in front of them. If its first word names a kind behind an at sign, this has to be a
single kind other than the license of which the comment holds a tag, and the other
words have to make up a tag. -/
def Absorbs (comment : Comment) (phrase : Phrase) : Prop :=
  ∀ first fields kind, phrase = first :: fields → first.kind? = some kind →
    kind.isRepeatable = false ∧ kind ≠ .license ∧ comment.holds kind = true ∧ kind.Accepts fields

/-- Lines without words do no harm. -/
theorem absorbs_nil (comment : Comment) : comment.Absorbs [] := by
  intro first fields kind impossible
  exact absurd impossible (by simp)

/-- A phrase does no harm exactly when it is read without a fault behind a star and
its tag, if it has one, is replaced. -/
theorem absorbs_iff (comment : Comment) (phrase : Phrase) :
    comment.Absorbs phrase ↔ (Reading.ofStarred phrase).isFault = false ∧
      (Reading.ofStarred phrase).comment.IsHiddenBy comment.writtenContent := by
  cases phrase with
  | nil => exact iff_of_true (absorbs_nil comment) ⟨rfl, isHiddenBy_of_noTags _ []⟩
  | cons word rest =>
    cases known : word.kind? with
    | none =>
      have harmless : comment.Absorbs (word :: rest) := by
        rintro first fields kind same named
        obtain ⟨rfl, rfl⟩ := List.cons.inj same
        exact absurd (known.symm.trans named) (by simp)
      refine iff_of_true harmless ?_
      cases sign : word.beginsWithAt with
      | false =>
        rw [Reading.ofStarred_prose word rest sign]
        exact ⟨rfl, isHiddenBy_of_noTags _ _⟩
      | true =>
        rw [Reading.ofStarred_unknown word rest sign known]
        exact ⟨rfl, isHiddenBy_of_noTags _ []⟩
    | some kind =>
      have unfolded : comment.Absorbs (word :: rest) ↔ kind.isRepeatable = false ∧
          kind ≠ .license ∧ comment.holds kind = true ∧ kind.Accepts rest := by
        constructor
        · intro harmless
          exact harmless word rest kind rfl known
        · rintro conditions first fields other same named
          obtain ⟨rfl, rfl⟩ := List.cons.inj same
          obtain rfl : kind = other := Option.some.inj (known.symm.trans named)
          exact conditions
      rw [unfolded, Reading.ofStarred_known word rest kind known]
      by_cases accepts : kind.Accepts rest
      · obtain ⟨tag, rfl, read⟩ := Reading.ofFields_of_accepts kind rest accepts
        rw [read, Reading.comment, isHiddenBy_insert, holds_writtenContent]
        simp [Reading.isFault, accepts]
      · obtain ⟨fault, read⟩ := Reading.ofFields_of_refused kind rest accepts
        simp [read, Reading.isFault, accepts]

end Comment

end CommentBlock
