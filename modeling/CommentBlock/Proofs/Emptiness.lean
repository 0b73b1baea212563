import CommentBlock.Proofs.Histories
import CommentBlock.Proofs.LineByLine

/-!
# Empty comments

A comment is written as nothing exactly if it is empty without its license. The test for
emptiness looks at each line of the description and at each tag, and writing looks at what
becomes of the description as a whole and at the lines of the tags; both find nothing in the
same comments. The license makes the difference: it counts as content and is not written.

A text without words describes nothing, whatever its blanks and line ends are. Parsing
describes by prose, which has words, so a parsed comment is empty only if it holds nothing
at all.
-/

namespace CommentBlock

namespace Comment

/-- A description is written as nothing exactly if no line of it has text. -/
theorem writtenDescription_eq_nil_iff (comment : Comment) :
    comment.writtenDescription = [] ↔ ∀ line ∈ comment.description, line.trim.isEmpty = true := by
  rw [writtenDescription_eq, List.map_eq_nil_iff, Line.trimEach, rdropWhile_dropWhile_eq_nil_iff,
    List.forall_mem_map]

/-- A comment is empty exactly if its description has no text and there is no tag. -/
theorem isEmpty_iff (comment : Comment) :
    comment.isEmpty = true ↔
      (∀ line ∈ comment.description, line.trim.isEmpty = true) ∧ comment.tags = [] := by
  simp only [isEmpty, tags, writtenTags, Line.isEmpty, Bool.and_eq_true, List.all_eq_true,
    Option.isNone_iff_eq_none, List.isEmpty_iff, List.append_eq_nil_iff, List.map_eq_nil_iff,
    Option.toList_eq_nil_iff]
  tauto

/-- A comment is written as nothing exactly if its description has no text and there is no
tag but a license. -/
theorem source_eq_nil_iff (comment : Comment) :
    comment.source = [] ↔
      (∀ line ∈ comment.description, line.trim.isEmpty = true) ∧ comment.writtenTags = [] := by
  rw [← writtenDescription_eq_nil_iff, ← body_eq_nil_iff, source_eq]
  split <;> simp_all

/-- Without its license a comment has the tags that are written. -/
theorem tags_withoutLicense (comment : Comment) :
    comment.withoutLicense.tags = comment.writtenTags := by
  exact List.append_nil comment.writtenTags

/-- Tags make up all of a comment but its description. -/
theorem eq_of_tags_eq_nil (comment : Comment) (noTags : comment.tags = []) :
    comment = { description := comment.description } := by
  have rest := comment.insertAll_tags
  rw [noTags, insertAll_nil] at rest
  have same :=
    congrArg (fun other : Comment => { other with description := comment.description }) rest
  exact same.symm

/-- Prose is empty only if nothing is there. -/
theorem isEmpty_iff_of_isProse (comment : Comment) (prose : comment.IsProse) :
    comment.isEmpty = true ↔ comment = empty := by
  constructor
  · intro nothing
    obtain ⟨noText, noTags⟩ := comment.isEmpty_iff.mp nothing
    obtain ⟨phrases, allProse, described⟩ := prose
    have noPhrases : phrases = [] := by
      apply List.eq_nil_iff_forall_not_mem.mpr
      intro phrase member
      have inside : phrase.line ∈ comment.description := by
        rw [described]
        exact List.mem_map_of_mem member
      have noWords := (Line.isEmpty_trim_iff phrase.line).mp (noText _ inside)
      rw [Phrase.words_line] at noWords
      rw [noWords] at member
      exact absurd (allProse [] member) (by decide)
    rw [noPhrases] at described
    rw [eq_of_tags_eq_nil comment noTags, described]
    rfl
  · rintro rfl
    rfl

end Comment

/-- The lines of a text have no text exactly if all its characters are blank: the others,
which are not in the lines, end them. -/
theorem Text.forall_lines_isEmpty_iff (text : Text) :
    (∀ line ∈ text.lines, line.trim.isEmpty = true) ↔ ∀ c ∈ text, isBlank c = true := by
  have inLines : (∀ line ∈ text.lines, line.trim.isEmpty = true) ↔
      ∀ c ∈ text.lines.flatMap Line.chars, isBlank c = true := by
    simp only [Line.isEmpty_trim_iff, words_eq_nil_iff, List.mem_flatMap]
    constructor
    · rintro blank c ⟨line, member, inside⟩
      exact blank line member c inside
    · intro blank line member c inside
      exact blank c ⟨line, member, inside⟩
  rw [inLines, flatMap_chars_lines]
  constructor
  · intro blank c member
    cases solid : isBlank c with
    | true => rfl
    | false =>
      have unbroken := isBreak_false_of_solid c solid
      rw [← solid]
      exact blank c (List.mem_filter.mpr ⟨member, by simp [unbroken]⟩)
  · intro blank c member
    exact blank c (List.mem_filter.mp member).1

namespace Comment

/-- A comment is written as nothing exactly if it is empty without its license. -/
theorem source_eq_nil_iff_isEmpty (comment : Comment) :
    comment.source = [] ↔ comment.withoutLicense.isEmpty = true := by
  rw [source_eq_nil_iff, isEmpty_iff, tags_withoutLicense]
  exact Iff.rfl

/-- An empty comment is empty without its license too. -/
theorem isEmpty_iff_withoutLicense (comment : Comment) :
    comment.isEmpty = true ↔ comment.withoutLicense.isEmpty = true ∧ comment.license = none := by
  rw [isEmpty_iff, isEmpty_iff, tags_withoutLicense, tags, List.append_eq_nil_iff,
    List.map_eq_nil_iff, Option.toList_eq_nil_iff, and_assoc]
  exact Iff.rfl

/-- A comment is not empty but written as nothing exactly if a license is all it holds. -/
theorem only_license_iff (comment : Comment) :
    comment.source = [] ∧ comment.isEmpty = false ↔
      ∃ lines value, (∀ line ∈ lines, ∀ c ∈ line.chars, isBlank c = true) ∧
        comment = { description := lines, license := some value } := by
  have noText : ∀ line : Line, line.trim.isEmpty = true ↔ ∀ c ∈ line.chars, isBlank c = true := by
    intro line
    rw [line.isEmpty_trim_iff, Text.words_eq_nil_iff]
  rw [source_eq_nil_iff_isEmpty, ← Bool.not_eq_true, comment.isEmpty_iff_withoutLicense]
  constructor
  · rintro ⟨nothing, notEmpty⟩
    obtain ⟨blank, noTags⟩ := comment.withoutLicense.isEmpty_iff.mp nothing
    obtain ⟨value, licensed⟩ : ∃ value, comment.license = some value :=
      Option.ne_none_iff_exists'.mp fun unlicensed => notEmpty ⟨nothing, unlicensed⟩
    have rest := eq_of_tags_eq_nil comment.withoutLicense noTags
    refine ⟨comment.description, value, fun line member => (noText line).mp (blank line member), ?_⟩
    calc comment
        = { comment.withoutLicense with license := some value } := by rw [← licensed]; rfl
      _ = { description := comment.description, license := some value } := by rw [rest]; rfl
  · rintro ⟨lines, value, blank, rfl⟩
    have nothing : withoutLicense { description := lines, license := some value } =
        { description := lines } := rfl
    rw [nothing, isEmpty_iff]
    exact ⟨⟨fun line member => (noText line).mpr (blank line member), rfl⟩, by simp⟩

/-- A comment is written as nothing exactly if it is empty without its license. So an empty
comment is, and of the others only those that hold nothing but a license, and perhaps lines of
blanks.

A comment that is made from a text alone is empty exactly if the text is blank, and a comment
that was parsed only if it is the one that holds nothing. -/
theorem written_as_nothing (comment : Comment) :
    (comment.source = [] ↔ comment.withoutLicense.isEmpty = true) ∧
      (comment.isEmpty = true → comment.source = []) ∧
      (comment.source = [] ∧ comment.isEmpty = false ↔
        ∃ lines value, (∀ line ∈ lines, ∀ c ∈ line.chars, isBlank c = true) ∧
          comment = { description := lines, license := some value }) ∧
      (∀ text : Text, (ofDescription text).isEmpty = true ↔ ∀ c ∈ text, isBlank c = true) ∧
      ∀ mode text parsed, parseAs mode text = .ok parsed →
        (parsed.isEmpty = true ↔ parsed = empty) := by
  refine ⟨comment.source_eq_nil_iff_isEmpty, ?_, comment.only_license_iff, ?_, ?_⟩
  · intro nothing
    exact comment.source_eq_nil_iff_isEmpty.mpr (comment.isEmpty_iff_withoutLicense.mp nothing).1
  · intro text
    rw [isEmpty_iff, ← Text.forall_lines_isEmpty_iff]
    exact and_iff_left rfl
  · intro mode text parsed succeeded
    exact parsed.isEmpty_iff_of_isProse (isProse_of_parseAs mode text parsed succeeded)

/-- Lines of odd blanks are written as nothing. A text that holds only a license is parsed as
a comment that is not empty. -/
theorem written_as_nothing_of_odd_blanks :
    let blank := ofDescription "\u2028\r\t\n\r\n\u3000".toList
    let licensed : Comment := { license := some [.ofChars "MIT".toList (by simp) rfl] }
    blank.isEmpty = true ∧ blank.source = [] ∧
      parseAs .strict " * @licence MIT".toList = .ok licensed ∧
      (licensed.isEmpty = true ↔ licensed = empty) ∧ licensed.isEmpty = false := by
  intro blank licensed
  have nothing : blank.isEmpty = true := by decide +kernel
  have parsed : parseAs .strict " * @licence MIT".toList = .ok licensed := rfl
  obtain ⟨-, unwritten, -, -, ofParsed⟩ := written_as_nothing blank
  exact ⟨nothing, unwritten nothing, parsed, ofParsed _ _ _ parsed, rfl⟩

end Comment

end CommentBlock
