import CommentBlock.Proofs.Prose
import CommentBlock.Proofs.Replacement

/-!
# What survives writing and reading back

Tags always survive on their own lines. What becomes of a comment is decided by
its description, since its lines are written as they are, behind a star: a line
whose first word begins with an at sign is not read back as prose.

A description without such lines comes back as the words of its lines that have
any, with all tags but the license. Parsing gives only such descriptions, each
line already in the form in which it comes back, so a parsed comment without its
license is a fixed point. The tags alone come back under a weaker condition: a
line of the description may also name an unknown kind, or make up a tag that the
tag of the comment replaces.
-/

namespace CommentBlock

namespace Comment

/-- A comment that is described by prose alone comes back with the words of its
description, and without its license. -/
theorem parse_source_of_prose (comment : Comment)
    (prose : ∀ phrase ∈ Line.phrases comment.description, phrase.isProse = true) :
    parse comment.source = .ok { comment.withoutLicense with
      description := (Line.phrases comment.description).map Phrase.line } := by
  rw [parse_source_eq_ok_iff]
  constructor
  · intro phrase member
    exact isFault_prose phrase (prose phrase member)
  · rw [ofPhrases_prose _ prose, describe_writtenContent]

/-- A parsed comment comes back as it is, except for its license. -/
theorem parse_source_parseLenient (text : Text) :
    parse (parseLenient text).source = .ok (parseLenient text).withoutLicense := by
  obtain ⟨phrases, prose, described⟩ := isProse_ofLinesLenient text.lines
  rw [← parseLenient] at described
  have same : Line.phrases (parseLenient text).description = phrases := by
    rw [described, Line.phrases_prose phrases prose]
  rw [parse_source_of_prose _ (by rwa [same]), same, ← described]
  rfl

/-- The license has no part in the block. -/
theorem source_withoutLicense (comment : Comment) :
    comment.withoutLicense.source = comment.source := rfl

/-- Lines of tags, whatever these hold, are read back as the tags in order: all tags of
a repeatable kind and the last one of any other kind, and nothing besides. Each single
line is read as its tag and describes nothing. -/
theorem parse_tag_lines (tags : List Tag) :
    parse (Text.ofEndedLines (tags.map Tag.line)) = .ok (empty.insertAll tags) ∧
      (empty.insertAll tags).description = [] ∧
      (∀ kind, (empty.insertAll tags).tagsOf kind =
        if kind.isRepeatable then tags.filter fun tag => tag.kind = kind
        else (tags.filter fun tag => tag.kind = kind).getLast?.toList) ∧
      ∀ tag, Reading.ofLine tag.line = .tag tag ∧
        parse tag.line.ended = .ok (empty.insert tag) := by
  have together : ∀ given : List Tag,
      parse (Text.ofEndedLines (given.map Tag.line)) = .ok (empty.insertAll given) := by
    intro given
    rw [parse_eq_ok_iff, parseLenient, Text.lines_ofEndedLines]
    exact ⟨isFault_tags given, ofLinesLenient_tags given⟩
  refine ⟨together tags, description_insertAll empty tags, ?_, ?_⟩
  · intro kind
    rw [tagsOf_insertAll, tagsOf_empty, List.nil_append, List.getLast?_nil, Option.or_none]
  · intro tag
    have alone : tag.line.ended = Text.ofEndedLines ([tag].map Tag.line) := by
      simp [Text.ofEndedLines]
    rw [alone, together [tag]]
    exact ⟨Reading.ofLine_tag_line tag, rfl⟩

/-- A comment that was parsed in either mode is read back from its block in either
mode as it is, without its license. So writing it once more changes nothing. -/
theorem reparse_of_parsed (mode again : Mode) (text : Text) (comment : Comment)
    (parsed : parseAs mode text = .ok comment) :
    parseAs again comment.source = .ok comment.withoutLicense ∧
      (parseAs again comment.source).map source = .ok comment.source := by
  obtain rfl : parseLenient text = comment := parseLenient_of_parseAs mode text comment parsed
  have reparsed : parseAs again (parseLenient text).source =
      .ok (parseLenient text).withoutLicense :=
    parseAs_of_parse again _ _ (parse_source_parseLenient text)
  refine ⟨reparsed, ?_⟩
  rw [reparsed]
  exact congrArg Except.ok (source_withoutLicense (parseLenient text))

/-- A text with three kinds of line ends, uneven gaps, the other spelling of a name
and a variable that keeps a dollar sign. -/
def looseText : Text := " *  The\tid\r * @licence MIT\r\n * @param int $$id\n".toList

/-- The comment that `looseText` holds. -/
def looseComment : Comment where
  description := [.ofChars "The id".toList rfl]
  license := some [.ofChars "MIT".toList (by simp) rfl]
  params := [⟨.ofChars "int".toList (by simp) rfl, .ofChars "$id".toList (by simp) rfl, []⟩]

/-- The loose text is parsed, and its comment is read back without the license. -/
theorem reparse_of_looseText :
    parseAs .strict looseText = .ok looseComment ∧
      parseAs .lenient looseComment.source = .ok looseComment.withoutLicense ∧
      (parseAs .lenient looseComment.source).map source = .ok looseComment.source := by
  have parsed : parseAs .strict looseText = .ok looseComment := rfl
  exact ⟨parsed, reparse_of_parsed .strict .lenient looseText looseComment parsed⟩

/-- A comment comes back with the words of its description, and without its
license, exactly when no line of the description has a first word that begins with
an at sign.

Such a line is read back as something else or not at all, so fewer lines are
described than have words. -/
theorem parse_source_iff (comment : Comment) :
    parse comment.source = .ok { comment.withoutLicense with
        description := (Line.phrases comment.description).map Phrase.line } ↔
      ∀ line ∈ comment.description, Phrase.beginsWithAt (Text.words line.chars) = false := by
  rw [← Line.forall_isProse_iff]
  constructor
  · intro parsed
    have content := ((parse_source_eq_ok_iff comment _).mp parsed).2
    have described : ((Line.phrases comment.description).filter Phrase.isProse).map Phrase.line =
        (Line.phrases comment.description).map Phrase.line := by
      rw [← description_ofPhrases, ← List.append_nil (ofPhrases _).description]
      exact congrArg Comment.description content
    have sameLength := congrArg List.length described
    rwa [List.length_map, List.length_map, List.length_filter_eq_length_iff] at sameLength
  · exact parse_source_of_prose comment

/-- A comment comes back with exactly its own tags, except for the license, if and
only if every line of its description does no harm to them. This holds for any
number of lines, a single one among them. -/
theorem tags_survive_iff (comment : Comment) :
    (∃ lines, parse comment.source = .ok { comment.withoutLicense with description := lines }) ↔
      ∀ line ∈ comment.description, comment.Absorbs (Text.words line.chars) := by
  rw [← Line.forall_mem_phrases comment.Absorbs (absorbs_nil comment)]
  simp only [parse_source_eq_ok_iff, exists_and_left, eq_describe_iff, absorbs_iff, forall_and]
  rw [← isHiddenBy_ofPhrases]
  exact Iff.rfl

/-- A single line of a description that begins with the sign of a parameter and has
too few words keeps the block from being parsed. -/
theorem tags_lost_to_sign :
    (ofDescription "@param int".toList).description.length = 1 ∧
      parse (ofDescription "@param int".toList).source = .error ⟨3, .tooFewWords .param 4 3⟩ ∧
      ¬ ∃ lines, parse (ofDescription "@param int".toList).source =
        .ok { (ofDescription "@param int".toList).withoutLicense with description := lines } := by
  have failed : parse (ofDescription "@param int".toList).source =
      .error ⟨3, .tooFewWords .param 4 3⟩ := rfl
  refine ⟨rfl, failed, ?_⟩
  rintro ⟨lines, succeeded⟩
  rw [failed] at succeeded
  cases succeeded

end Comment

end CommentBlock
