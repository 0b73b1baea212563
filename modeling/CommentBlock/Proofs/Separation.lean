import CommentBlock.Proofs.Block

/-!
# Descriptions and tags apart

The block of a comment has its description first and its tags behind. So whatever a
description is read back as, be it prose, tags or faults, the written tags are read
behind all of that: they are added where their kind is repeatable and stay where it
is not. In the other direction no tag changes how a description is read. The lines of
tags have no faults and the lines of the description keep their numbers, so the block
is refused exactly when it would be refused without its tags, with the same error.
-/

namespace CommentBlock.Comment

/-- The error of a block is that of its description, whose first line is the third
of the block. -/
theorem parse_source_eq_error_iff (comment : Comment) (error : ParseError) :
    parse comment.source = .error error ↔
      ofLines 3 comment.writtenDescription = .error error := by
  rw [parse, source, Text.lines_ofEndedLines, sourceLines]
  by_cases noBody : comment.body = []
  · have noDescription : comment.writtenDescription = [] := by
      simp only [body, List.append_eq_nil_iff] at noBody
      exact noBody.1.1
    rw [if_pos noBody, noDescription, ofLines, ofLines]
  · -- Two sound lines stand in front of the description, and only sound lines behind it.
    have grouped : .empty :: .opening :: comment.body ++ [.closing] =
        [.empty, .opening] ++ (comment.writtenDescription ++
          (comment.separator ++ comment.writtenTags.map Tag.line ++ [.closing])) := by
      simp [body]
    have frontSound : ∀ line ∈ [Line.empty, .opening], (Reading.ofLine line).isFault = false := by
      simp [Reading.ofLine_empty, Reading.ofLine_opening, Reading.isFault]
    have backSound : ∀ line ∈ comment.separator ++ comment.writtenTags.map Tag.line ++ [.closing],
        (Reading.ofLine line).isFault = false := by
      rw [List.forall_mem_append, List.forall_mem_append, List.forall_mem_singleton]
      exact ⟨⟨isFault_separator comment, isFault_tags _⟩, rfl⟩
    rw [if_neg noBody, grouped, ofLines_append_error_of_sound_front _ _ _ frontSound,
      ofLines_append_error_of_sound_back _ _ _ backSound]
    rfl

/-- Without its tags a comment is read back as its description is. -/
theorem parseLenient_source_withoutTags (comment : Comment) :
    parseLenient comment.withoutTags.source = ofPhrases (Line.phrases comment.description) := by
  rw [parseLenient_source]
  exact append_empty _

/-- A comment is read back as it is without its tags, with the written tags inserted
behind: parameters and thrown exceptions are added, a single tag of the comment
stays whatever the description is read as, and the license is that of the
description. The block is refused exactly when it is without the tags, with the same
error. -/
theorem tags_read_behind_description (comment : Comment) :
    let plain := parseLenient comment.withoutTags.source
    parseLenient comment.source = plain.insertAll comment.writtenTags ∧
      parseLenient comment.source =
        { description := plain.description
          var := comment.var.or plain.var
          returns := comment.returns.or plain.returns
          package := comment.package.or plain.package
          author := comment.author.or plain.author
          license := plain.license
          access := comment.access.or plain.access
          params := plain.params ++ comment.params
          throws := plain.throws ++ comment.throws } ∧
      ∀ error, parse comment.source = .error error ↔
        parse comment.withoutTags.source = .error error := by
  intro plain
  have together : parseLenient comment.source = plain ++ comment.writtenContent := by
    rw [parseLenient_source, ← parseLenient_source_withoutTags]
  refine ⟨?_, ?_, ?_⟩
  · rw [together, insertAll_eq, insertAll_writtenTags]
  · rw [together, append_eq]
    simp [append, writtenContent, withoutLicense]
  · intro error
    rw [parse_source_eq_error_iff, parse_source_eq_error_iff]
    rfl

end CommentBlock.Comment
