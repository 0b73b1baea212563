import CommentBlock.Proofs.Shape

/-!
# Descriptions line by line

What is written of a description can be told from its lines one by one: each is trimmed,
those without text at the two ends are left out, and the others follow one another, blank
lines among them included. This is what comes of trimming the description as one text and
taking it apart again.

So the lines of a description in this form are all that its block shows of it. Two
descriptions are written alike exactly if they agree in this form, and a description may
be replaced by its lines in this form.
-/

namespace CommentBlock

namespace Line

/-- Whether the line has no text. -/
def isBlankLine (line : Line) : Bool := line.trim.isEmpty

/-- The lines from the first to the last that has text. -/
def inner (lines : List Line) : List Line :=
  (lines.dropWhile isBlankLine).rdropWhile isBlankLine

/-- It does not matter whether lines are trimmed before those at the two ends are left out
or afterwards. -/
theorem trimEach_eq_map_inner (lines : List Line) : trimEach lines = (inner lines).map trim := by
  rw [trimEach, inner, List.dropWhile_map, List.rdropWhile, List.rdropWhile, ← List.map_reverse,
    List.dropWhile_map, List.map_reverse]
  rfl

/-- The lines in front of the first and behind the last that has text have none, and those
two have. -/
theorem exists_around_inner (lines : List Line) :
    ∃ front back, lines = front ++ inner lines ++ back ∧
      (∀ line ∈ front ++ back, line.isBlankLine = true) ∧
      (∀ line ∈ (inner lines).head?, line.isBlankLine = false) ∧
      ∀ line ∈ (inner lines).getLast?, line.isBlankLine = false := by
  refine ⟨lines.takeWhile isBlankLine, (lines.dropWhile isBlankLine).rtakeWhile isBlankLine, ?_,
    ?_, head?_rdropWhile_dropWhile _ _, getLast?_rdropWhile _ _⟩
  · rw [List.append_assoc, inner, List.rdropWhile_append_rtakeWhile,
      List.takeWhile_append_dropWhile]
  · rw [List.forall_mem_append]
    constructor
    · intro line member
      exact List.mem_takeWhile_imp member
    · intro line member
      exact List.mem_rtakeWhile_imp member

/-- A trimmed line has nothing more to trim. -/
theorem trim_trim (line : Line) : line.trim.trim = line.trim := by
  have bothEnds : line.trim = line.trimStart.trimEnd := rfl
  calc line.trim.trim
      = line.trimStart.trimEnd.trim := by rw [bothEnds]
    _ = line.trim := by rw [trim_trimEnd, trim_trimStart]

/-- Lines in this form stay as they are. -/
theorem trimEach_trimEach (lines : List Line) : trimEach (trimEach lines) = trimEach lines := by
  have allTrimmed : (trimEach lines).map trim = trimEach lines := by
    rw [trimEach_eq_map_inner, List.map_map]
    exact List.map_congr_left fun line _ => line.trim_trim
  rw [trimEach.eq_1 (trimEach lines), allTrimmed, trimEach, dropWhile_rdropWhile,
    List.dropWhile_idempotent, List.rdropWhile_idempotent]

/-- Lines in this form are read back when they are joined. -/
theorem lines_ofLines_trimEach (lines : List Line) :
    (Text.ofLines (trimEach lines)).lines = trimEach lines := by
  apply Text.lines_ofLines
  intro last ends noChars
  have kept : last.isEmpty = false := getLast?_rdropWhile isEmpty _ last ends
  simp [isEmpty, noChars] at kept

/-- Behind the star and the space stand the characters of the line; a line without any has
no space either. -/
theorem drop_chars_starred (line : Line) : line.starred.chars.drop 3 = line.chars := by
  rw [chars_starred]
  cases noChars : line.chars.isEmpty with
  | true => exact (List.isEmpty_iff.mp noChars).symm
  | false => rfl

/-- A line is told by how it stands behind a star. -/
theorem starred_injective : Function.Injective starred := by
  intro first second same
  apply eq_of_chars_eq
  rw [← first.drop_chars_starred, ← second.drop_chars_starred, same]

end Line

namespace Comment

/-- Descriptions are written alike exactly if their lines agree after trimming, those
without text at the two ends left out. -/
theorem writtenDescription_eq_iff (first second : Comment) :
    first.writtenDescription = second.writtenDescription ↔
      Line.trimEach first.description = Line.trimEach second.description := by
  rw [writtenDescription_eq, writtenDescription_eq, Line.starred_injective.list_map.eq_iff]

/-- The body of a block is found between its first two lines and its last one. -/
theorem body_of_source (comment : Comment) :
    comment.body = (comment.source.lines.drop 2).dropLast := by
  rw [source, Text.lines_ofEndedLines, sourceLines]
  split
  · assumption
  · exact List.dropLast_concat.symm

/-- Comments are written alike exactly if the bodies of their blocks are the same. -/
theorem source_eq_iff_body (first second : Comment) :
    first.source = second.source ↔ first.body = second.body := by
  constructor
  · intro same
    rw [body_of_source, body_of_source, same]
  · intro same
    rw [source_eq, source_eq, same]

/-- The description is told by what a body has in front of its tags, where the separator can
only be the last line. -/
theorem writtenDescription_of_front (comment : Comment) :
    comment.writtenDescription =
      if comment.writtenTags = [] then comment.writtenDescription ++ comment.separator
      else (comment.writtenDescription ++ comment.separator).dropLast := by
  by_cases noTags : comment.writtenTags = []
  · rw [if_pos noTags, separator, if_pos (.inr noTags), List.append_nil]
  · rw [if_neg noTags]
    by_cases noDescription : comment.writtenDescription = []
    · rw [separator, if_pos (.inl noDescription), noDescription]
      rfl
    · rw [separator, if_neg (not_or.mpr ⟨noDescription, noTags⟩), List.dropLast_concat]

/-- Comments with the same tags are written alike exactly if their descriptions are. -/
theorem source_eq_iff (first second : Comment) (sameTags : first.writtenTags = second.writtenTags) :
    first.source = second.source ↔ first.writtenDescription = second.writtenDescription := by
  rw [source_eq_iff_body, body, body, sameTags, List.append_left_inj]
  constructor
  · intro sameFront
    rw [writtenDescription_of_front first, sameFront, sameTags, ← writtenDescription_of_front]
  · intro same
    rw [separator, separator, same, sameTags]

/-- The text of a written description, its lines trimmed one by one. -/
theorem ofEndedLines_writtenDescription (comment : Comment) :
    Text.ofEndedLines comment.writtenDescription =
      (Line.trimEach comment.description).flatMap fun line =>
        if line.chars.isEmpty then " *\n".toList else " * ".toList ++ line.chars ++ ['\n'] := by
  rw [writtenDescription_eq, Text.ofEndedLines, List.flatMap_map]
  congr 1
  funext line
  rw [Line.ended, Line.chars_starred]
  cases line.chars.isEmpty <;> rfl

/-- The text of a block part by part. -/
theorem source_eq_parts (comment : Comment) :
    let described := Text.ofEndedLines comment.writtenDescription
    let stated := Text.ofEndedLines (comment.writtenTags.map Tag.line)
    comment.source =
      if described = [] ∧ stated = [] then []
      else "\n/**\n".toList ++ described ++
        (if described ≠ [] ∧ stated ≠ [] then " *\n".toList else []) ++ stated ++
          " */\n".toList := by
  intro described stated
  have noDescription : described = [] ↔ comment.writtenDescription = [] :=
    Text.ofEndedLines_eq_nil_iff _
  have noTags : stated = [] ↔ comment.writtenTags = [] :=
    (Text.ofEndedLines_eq_nil_iff _).trans List.map_eq_nil_iff
  have between : Text.ofEndedLines comment.separator =
      if described ≠ [] ∧ stated ≠ [] then " *\n".toList else [] := by
    rw [separator_eq, if_congr (and_congr (not_congr noDescription) (not_congr noTags)) rfl rfl]
    split <;> rfl
  have noBody : comment.body = [] ↔ described = [] ∧ stated = [] := by
    rw [body_eq_nil_iff, noDescription, noTags]
  have inside : Text.ofEndedLines comment.body = described ++
      (if described ≠ [] ∧ stated ≠ [] then " *\n".toList else []) ++ stated := by
    rw [body, Text.ofEndedLines_append, Text.ofEndedLines_append, between]
  rw [source_eq, inside, if_congr noBody rfl rfl]
  simp only [List.append_assoc]

/-- A description is written line by line. Each of its lines is trimmed and stands on a line
of its own behind a star, which is bare if nothing is left of it; of the lines without text
those in front of the first and behind the last with text are left out, and all others stay.
To trim the joined lines and to take them apart again comes to the same.

So descriptions are written alike exactly if they agree line by line in this form, whatever
the tags of their comments are and whichever line ends their texts have, and a description
can be replaced by its lines in this form. -/
theorem description_line_by_line (comment : Comment) :
    let kept := Line.trimEach comment.description
    let described := kept.flatMap fun line =>
      if line.chars.isEmpty then " *\n".toList else " * ".toList ++ line.chars ++ ['\n']
    let stated := Text.ofEndedLines (comment.writtenTags.map Tag.line)
    (Text.ofLines comment.description).trim.lines.map Line.trim = kept ∧
      Text.ofEndedLines comment.writtenDescription = described ∧
      comment.source =
        (if described = [] ∧ stated = [] then []
        else "\n/**\n".toList ++ described ++
          (if described ≠ [] ∧ stated ≠ [] then " *\n".toList else []) ++ stated ++
            " */\n".toList) ∧
      (∃ front inner back, comment.description = front ++ inner ++ back ∧
        kept = inner.map Line.trim ∧ (∀ line ∈ front ++ back, line.trim.isEmpty = true) ∧
        (∀ line ∈ inner.head?, line.trim.isEmpty = false) ∧
        ∀ line ∈ inner.getLast?, line.trim.isEmpty = false) ∧
      (∀ other : Comment, other.writtenDescription = comment.writtenDescription ↔
        Line.trimEach other.description = kept) ∧
      (∀ first second : Text, (comment.describe first).source = (comment.describe second).source ↔
        Line.trimEach first.lines = Line.trimEach second.lines) ∧
      (comment.describe (Text.ofLines kept)).source = comment.source := by
  intro kept described stated
  have written : Text.ofEndedLines comment.writtenDescription = described :=
    comment.ofEndedLines_writtenDescription
  obtain ⟨front, back, split, noText, edges⟩ := Line.exists_around_inner comment.description
  refine ⟨normalLines_eq comment.description, written, ?_,
    ⟨front, _, back, split, Line.trimEach_eq_map_inner _, noText, edges⟩,
    fun other => writtenDescription_eq_iff other comment, ?_, ?_⟩
  · rw [← written]
    exact comment.source_eq_parts
  · intro first second
    rw [source_eq_iff (comment.describe first) (comment.describe second) rfl,
      writtenDescription_eq_iff]
    exact Iff.rfl
  · rw [source_eq_iff (comment.describe _) comment rfl, writtenDescription_eq_iff]
    change Line.trimEach (Text.ofLines kept).lines = kept
    rw [Line.lines_ofLines_trimEach, Line.trimEach_trimEach]

end Comment

end CommentBlock
