import CommentBlock.Proofs.Trimming

/-!
# The shape of a block

A block is framed, and between its first and its last line stand the lines of the
description, the lines of the tags in their fixed order, and one bare line where both
are present. Every one of these lines is bare or goes on behind its star with text, so
none ends in a blank. The edges of a description in normal form are not empty and the
line of a tag is never bare, hence no bare line stands at either end of the body.

Fields hold words and phrases, and lines of a description hold no line end. That is
why every tag takes one line, why LF is the only line end of a block, and why the
lines can be counted.
-/

namespace CommentBlock

/-- A slash separates no words. -/
theorem isBlank_slash : isBlank '/' = false := rfl

/-- Lines that are each ended by LF have no CR. -/
theorem Text.not_mem_ofEndedLines (lines : List Line) : '\r' ∉ ofEndedLines lines := by
  intro member
  obtain ⟨line, _, inside⟩ := List.mem_flatMap.mp member
  rcases List.mem_append.mp inside with own | ending
  · exact line.not_mem_break.1 own
  · exact absurd (List.mem_singleton.mp ending) (by decide)

namespace Line

/-- Whether the line goes on behind a star and a space with text. -/
def IsFilled (line : Line) : Prop :=
  ∃ c rest, line.chars = " * ".toList ++ c :: rest ∧ isBlank c = false

/-- A bare line has no text. -/
theorem ne_bare_of_isFilled (line : Line) (filled : line.IsFilled) : line ≠ .bare := by
  obtain ⟨c, rest, shape, _⟩ := filled
  rintro rfl
  have tooLong := congrArg List.length shape
  simp [bare, ofChars] at tooLong

/-- The last character of the line, if it has one, is not blank. -/
def EndsSolid (line : Line) : Prop := ∀ c ∈ line.chars.getLast?, isBlank c = false

/-- A line stands behind a star and a space, an empty one behind the star alone. -/
theorem chars_starred (line : Line) :
    line.starred.chars =
      if line.chars.isEmpty then " *".toList else " * ".toList ++ line.chars := by
  rw [starred]
  cases line.chars.isEmpty <;> rfl

/-- A trimmed line that is not empty is filled behind its star. -/
theorem isFilled_starred (line : Line) (kept : line.trim.isEmpty = false) :
    line.trim.starred.IsFilled := by
  cases shape : line.trim.chars with
  | nil => simp [isEmpty, shape] at kept
  | cons c rest =>
    have begins : line.chars.trim.head? = some c := by
      rw [show line.chars.trim = c :: rest from shape, List.head?_cons]
    refine ⟨c, rest, ?_, Text.isBlank_head?_trim line.chars c begins⟩
    simp [starred, cons, shape]

/-- A trimmed line is bare or filled behind its star. -/
theorem starred_trim (line : Line) : line.trim.starred = .bare ∨ line.trim.starred.IsFilled := by
  cases kept : line.trim.isEmpty with
  | true => exact .inl (if_pos kept)
  | false => exact .inr (line.isFilled_starred kept)

/-- A trimmed line does not end in a blank behind its star. -/
theorem endsSolid_starred (line : Line) : line.trim.starred.EndsSolid := by
  intro c last
  cases shape : line.trim.chars with
  | nil =>
    have star : '*' = c := by simpa [starred, shape, bare, ofChars] using last
    exact star ▸ isBlank_star
  | cons first rest =>
    have sameLast : line.chars.trim.getLast? = some c := by
      rw [show line.chars.trim = first :: rest from shape]
      simpa [starred, cons, shape] using last
    exact Text.isBlank_getLast?_trim line.chars c sameLast

end Line

namespace Tag

/-- The line of a tag goes on behind its star with the sign of the kind. -/
theorem chars_line (tag : Tag) :
    tag.line.chars = " * ".toList ++ Phrase.text (tag.kind.sign :: tag.words) := by
  change ' ' :: Phrase.text (.star :: tag.kind.sign :: tag.words) = _
  rw [Phrase.text_cons]
  rfl

/-- The line of a tag is filled. -/
theorem isFilled_line (tag : Tag) : tag.line.IsFilled := by
  have begins : (Phrase.text (tag.kind.sign :: tag.words)).head? = some '@' :=
    Phrase.head?_text tag.kind.sign tag.words
  obtain ⟨rest, shape⟩ := List.head?_eq_some_iff.mp begins
  exact ⟨'@', rest, by rw [chars_line, shape], by decide⟩

/-- The line of a tag does not end in a blank. -/
theorem endsSolid_line (tag : Tag) : tag.line.EndsSolid := by
  have begins : (Phrase.text (tag.kind.sign :: tag.words)).head? = some '@' :=
    Phrase.head?_text tag.kind.sign tag.words
  obtain ⟨rest, shape⟩ := List.head?_eq_some_iff.mp begins
  have sameLast : tag.line.chars.getLast? =
      (Phrase.text (tag.kind.sign :: tag.words)).getLast? := by
    rw [chars_line, List.getLast?_append_of_ne_nil _ (by simp [shape])]
  rw [Line.EndsSolid, sameLast]
  exact Phrase.isBlank_getLast?_text _

end Tag

namespace Comment

/-- What is written of a description is told by its lines, trimmed one by one. -/
theorem writtenDescription_eq (comment : Comment) :
    comment.writtenDescription = (Line.trimEach comment.description).map Line.starred := by
  rw [writtenDescription, normalLines_eq]

/-- The lines of a written description are bare or filled, and none ends in a blank. -/
theorem writtenDescription_lines (comment : Comment) :
    ∀ line ∈ comment.writtenDescription, (line = .bare ∨ line.IsFilled) ∧ line.EndsSolid := by
  intro line member
  obtain ⟨normal, inside, rfl⟩ := List.mem_map.mp member
  obtain ⟨original, _, rfl⟩ := List.mem_map.mp inside
  exact ⟨original.starred_trim, original.endsSolid_starred⟩

/-- The lines of a body are bare or filled, and none ends in a blank. -/
theorem body_lines (comment : Comment) :
    ∀ line ∈ comment.body, (line = .bare ∨ line.IsFilled) ∧ line.EndsSolid := by
  have bareEnds : Line.bare.EndsSolid := by
    intro c last
    have star : '*' = c := by simpa [Line.bare, Line.ofChars] using last
    exact star ▸ isBlank_star
  rw [body, List.forall_mem_append, List.forall_mem_append]
  refine ⟨⟨comment.writtenDescription_lines, ?_⟩, ?_⟩
  · intro line member
    rw [separator] at member
    split at member
    · simp at member
    · rw [List.mem_singleton.mp member]
      exact ⟨.inl rfl, bareEnds⟩
  · intro line member
    obtain ⟨tag, _, rfl⟩ := List.mem_map.mp member
    exact ⟨.inr tag.isFilled_line, tag.endsSolid_line⟩

/-- No line of a block ends in a blank, those of the frame included. -/
theorem sourceLines_endSolid (comment : Comment) :
    ∀ line ∈ comment.sourceLines, line.EndsSolid := by
  have emptyEnds : Line.empty.EndsSolid := by simp [Line.EndsSolid, Line.empty]
  have openingEnds : Line.opening.EndsSolid := by
    simp [Line.EndsSolid, Line.opening, Line.ofChars, isBlank_star]
  have closingEnds : Line.closing.EndsSolid := by
    simp [Line.EndsSolid, Line.closing, Line.ofChars, isBlank_slash]
  have bodyEnds : ∀ line ∈ comment.body, line.EndsSolid := by
    intro line member
    exact (comment.body_lines line member).2
  rw [sourceLines]
  split
  · simp
  · rw [List.forall_mem_append, List.forall_mem_cons, List.forall_mem_cons,
      List.forall_mem_singleton]
    exact ⟨⟨emptyEnds, openingEnds, bodyEnds⟩, closingEnds⟩

/-- A line at either edge of a description in normal form is not empty. -/
theorem isEmpty_edge_normalLines (description : List Line) (line : Line)
    (edge : (normalLines description).head? = some line ∨
      (normalLines description).getLast? = some line) : line.isEmpty = false := by
  rw [normalLines_eq, Line.trimEach] at edge
  rcases edge with first | last
  · exact head?_rdropWhile_dropWhile _ _ line first
  · exact getLast?_rdropWhile _ _ line last

/-- A line at either edge of a written description is filled. -/
theorem isFilled_edge_description (comment : Comment) (line : Line)
    (edge : comment.writtenDescription.head? = some line ∨
      comment.writtenDescription.getLast? = some line) : line.IsFilled := by
  have normalEdge : ∃ normal : Line, ((normalLines comment.description).head? = some normal ∨
      (normalLines comment.description).getLast? = some normal) ∧ normal.starred = line := by
    rw [writtenDescription, List.head?_map, List.getLast?_map, Option.map_eq_some_iff,
      Option.map_eq_some_iff, ← exists_or] at edge
    simpa only [or_and_right] using edge
  obtain ⟨normal, atEdge, rfl⟩ := normalEdge
  have kept : normal.isEmpty = false := isEmpty_edge_normalLines _ normal atEdge
  have member : normal ∈ normalLines comment.description := by
    rcases atEdge with first | last
    · exact List.mem_of_mem_head? first
    · exact List.mem_of_getLast? last
  obtain ⟨original, _, rfl⟩ := List.mem_map.mp member
  exact original.isFilled_starred kept

/-- A line at either edge of a body is filled. The separator stands at neither, since
it is only there between a description and tags. -/
theorem isFilled_edge_body (comment : Comment) (line : Line)
    (edge : comment.body.head? = some line ∨ comment.body.getLast? = some line) :
    line.IsFilled := by
  have ofTag : line ∈ comment.writtenTags.map Tag.line → line.IsFilled := by
    intro member
    obtain ⟨tag, _, rfl⟩ := List.mem_map.mp member
    exact tag.isFilled_line
  by_cases noDescription : comment.writtenDescription = []
  · have onlyTags : comment.body = comment.writtenTags.map Tag.line := by
      simp [body, separator, noDescription]
    rw [onlyTags] at edge
    rcases edge with first | last
    · exact ofTag (List.mem_of_mem_head? first)
    · exact ofTag (List.mem_of_getLast? last)
  · by_cases noTags : comment.writtenTags = []
    · have onlyDescription : comment.body = comment.writtenDescription := by
        simp [body, separator, noTags]
      rw [onlyDescription] at edge
      exact comment.isFilled_edge_description line edge
    · have tagLines : comment.writtenTags.map Tag.line ≠ [] := by simpa using noTags
      rcases edge with first | last
      · rw [body, List.append_assoc, List.head?_append_of_ne_nil _ noDescription] at first
        exact comment.isFilled_edge_description line (.inl first)
      · rw [body, List.getLast?_append_of_ne_nil _ tagLines] at last
        exact ofTag (List.mem_of_getLast? last)

/-- The text of a block is its frame around the lines of its body. -/
theorem source_eq (comment : Comment) :
    comment.source = if comment.body = [] then []
      else "\n/**\n".toList ++ Text.ofEndedLines comment.body ++ " */\n".toList := by
  rw [source, sourceLines]
  split
  · rfl
  · simp [Text.ofEndedLines, Line.ended, Line.empty, Line.opening, Line.closing, Line.ofChars]

/-- The frame of a block takes three lines. -/
theorem length_sourceLines (comment : Comment) :
    comment.sourceLines.length = if comment.body = [] then 0 else 3 + comment.body.length := by
  rw [sourceLines]
  split
  · rfl
  · simp only [List.length_append, List.length_cons, List.length_nil]
    omega

/-- A body is empty exactly if there are neither a description nor tags to write. -/
theorem body_eq_nil_iff (comment : Comment) :
    comment.body = [] ↔ comment.writtenDescription = [] ∧ comment.writtenTags = [] := by
  rw [body, List.append_eq_nil_iff, List.append_eq_nil_iff, List.map_eq_nil_iff]
  constructor
  · rintro ⟨⟨noDescription, _⟩, noTags⟩
    exact ⟨noDescription, noTags⟩
  · rintro ⟨noDescription, noTags⟩
    exact ⟨⟨noDescription, by rw [separator, if_pos (.inl noDescription)]⟩, noTags⟩

/-- The separator is there exactly if a description and tags are. -/
theorem separator_eq (comment : Comment) :
    comment.separator =
      if comment.writtenDescription ≠ [] ∧ comment.writtenTags ≠ [] then [.bare] else [] := by
  rw [separator, ← ite_not]
  simp only [not_or]

/-- A comment is written as nothing or as a framed block. Its body has the lines of
the description, trimmed one by one and without the empty ones at the two ends, each
behind a star; a bare line exactly if there are such lines and tags; and a line for
each tag: parameters and thrown exceptions in the order in which they are stored, then
variable, package, author, access and return. The license has no line.

There is no CR in the text. Each line of the body is bare or has text behind its star,
no line ends in a blank, no bare line is the first or the last of the body, and the
frame takes three lines. -/
theorem source_shape (comment : Comment) :
    let described := (Line.trimEach comment.description).map Line.starred
    let stated := (comment.params.map Tag.param ++ comment.throws.map Tag.throws ++
      comment.var.toList.map Tag.var ++ comment.package.toList.map Tag.package ++
      comment.author.toList.map Tag.author ++ comment.access.toList.map Tag.access ++
      comment.returns.toList.map Tag.returns).map Tag.line
    let between := if described ≠ [] ∧ stated ≠ [] then [Line.bare] else []
    let body := described ++ between ++ stated
    described.map Line.chars = ((Line.trimEach comment.description).map fun line =>
        if line.chars.isEmpty then " *".toList else " * ".toList ++ line.chars) ∧
      comment.source =
        (if body = [] then [] else "\n/**\n".toList ++ Text.ofEndedLines body ++ " */\n".toList) ∧
      '\r' ∉ comment.source ∧
      (∀ line ∈ body, line = .bare ∨ line.IsFilled) ∧
      (∀ line ∈ comment.source.lines, line.EndsSolid) ∧
      body.head? ≠ some .bare ∧ body.getLast? ≠ some .bare ∧
      comment.source.lines.length =
        if body = [] then 0 else 3 + described.length + between.length + stated.length := by
  intro described stated between body
  have someTags : stated ≠ [] ↔ comment.writtenTags ≠ [] := not_congr List.map_eq_nil_iff
  have sameTest : (described ≠ [] ∧ stated ≠ []) ↔
      (comment.writtenDescription ≠ [] ∧ comment.writtenTags ≠ []) := by
    rw [writtenDescription_eq]
    exact and_congr_right fun _ => someTags
  have sameBody : comment.body = body := by
    rw [Comment.body, separator_eq, ← if_congr sameTest rfl rfl, writtenDescription_eq]
    rfl
  have charsOfDescribed : described.map Line.chars =
      (Line.trimEach comment.description).map fun line =>
        if line.chars.isEmpty then " *".toList else " * ".toList ++ line.chars := by
    rw [List.map_map]
    exact List.map_congr_left fun line _ => line.chars_starred
  have sourceLines : comment.source.lines = comment.sourceLines :=
    Text.lines_ofEndedLines comment.sourceLines
  have notBare : ∀ line, comment.body.head? = some line ∨ comment.body.getLast? = some line →
      line ≠ .bare := by
    intro line edge
    exact line.ne_bare_of_isFilled (comment.isFilled_edge_body line edge)
  have counted : 3 + body.length = 3 + described.length + between.length + stated.length := by
    rw [List.length_append, List.length_append]
    omega
  rw [sourceLines, length_sourceLines, sameBody, counted, ← sameBody]
  refine ⟨charsOfDescribed, comment.source_eq, Text.not_mem_ofEndedLines _, ?_,
    comment.sourceLines_endSolid, ?_, ?_, rfl⟩
  · intro line member
    exact (comment.body_lines line member).1
  · intro begins
    exact notBare .bare (.inl begins) rfl
  · intro ends
    exact notBare .bare (.inr ends) rfl

end Comment

end CommentBlock
