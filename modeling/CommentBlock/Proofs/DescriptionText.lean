import CommentBlock.Proofs.LineByLine

/-!
# Descriptions as text

A description is handed out as one text, its lines joined by LF, and a text that is set as a
description is taken apart again. The one thing that a joined text does not show is an empty
line at its end. So a description that is set to its own text loses such a line, and only the
last one if there are several. Nothing of this is seen in the block, where no line without
text is written at the end of a description.

A text that is set as a description is handed out with LF in the place of each of its line
ends, and without the one that it ends in, if it does.
-/

namespace CommentBlock

namespace Text

/-- With an empty line behind them, joined lines are ended by LF each. -/
theorem ofLines_concat_empty (given : List Line) :
    ofLines (given ++ [.empty]) = ofEndedLines given := by
  induction given with
  | nil => rfl
  | cons line rest inductionHypothesis =>
    have filled : rest ++ [Line.empty] ≠ [] := by simp
    obtain ⟨next, more, split⟩ := List.exists_cons_of_ne_nil filled
    rw [List.cons_append, split, ofLines_cons_cons, ← split, inductionHypothesis,
      ofEndedLines_cons]

/-- Joined lines are read back except for an empty line at their end. -/
theorem lines_ofLines_eq (given : List Line) :
    lines (ofLines given) =
      if given.getLast? = some .empty then given.dropLast else given := by
  by_cases endsEmpty : given.getLast? = some .empty
  · obtain ⟨front, rfl⟩ := List.getLast?_eq_some_iff.mp endsEmpty
    rw [if_pos endsEmpty, ofLines_concat_empty, lines_ofEndedLines, List.dropLast_concat]
  · rw [if_neg endsEmpty]
    apply lines_ofLines
    intro last ends noChars
    have isEmpty : last = .empty := last.eq_of_chars_eq .empty noChars
    exact endsEmpty (isEmpty ▸ ends)

/-- The text with LF in the place of each line end. -/
def withLineFeeds : Text → Text
  | [] => []
  | '\r' :: '\n' :: rest => '\n' :: withLineFeeds rest
  | '\r' :: rest => '\n' :: withLineFeeds rest
  | c :: rest => c :: withLineFeeds rest

/-- The text without the LF that it ends in, if it does. -/
def withoutFinalFeed (text : Text) : Text :=
  if text.getLast? = some '\n' then text.dropLast else text

/-- A character that is not itself an LF at the end stays at the front. -/
theorem withoutFinalFeed_cons (c : Char) (rest : Text) (stays : c = '\n' → rest ≠ []) :
    withoutFinalFeed (c :: rest) = c :: withoutFinalFeed rest := by
  cases rest with
  | nil =>
    have noFeed : c ≠ '\n' := fun isFeed => stays isFeed rfl
    simp [withoutFinalFeed, noFeed]
  | cons d more =>
    rw [withoutFinalFeed, withoutFinalFeed, List.getLast?_cons_cons, List.dropLast_cons_cons]
    exact (apply_ite (c :: ·) _ _ _).symm

/-- A text with characters has some after its line ends are replaced. -/
theorem withLineFeeds_ne_nil (text : Text) (filled : text ≠ []) : text.withLineFeeds ≠ [] := by
  fun_cases withLineFeeds text with
  | case1 => exact absurd rfl filled
  | case2 | case3 | case4 => exact List.cons_ne_nil _ _

/-- A character that joins the first line stands in front of the joined lines. -/
theorem ofLines_prependToLines (c : Char) (unbroken : isBreak c = false) (given : List Line) :
    ofLines (prependToLines c unbroken given) = c :: ofLines given := by
  rcases given with _ | ⟨line, _ | ⟨next, more⟩⟩
  · rfl
  · rfl
  · rw [prependToLines, ofLines_cons_cons, ofLines_cons_cons]
    rfl

/-- An empty line in front of the lines of a text is an LF in front of it, unless the text is
empty too. -/
theorem ofLines_empty_cons_lines (rest : Text)
    (joined : ofLines (lines rest) = rest.withLineFeeds.withoutFinalFeed) :
    ofLines (.empty :: lines rest) = withoutFinalFeed ('\n' :: rest.withLineFeeds) := by
  by_cases nothing : rest = []
  · rw [nothing]
    rfl
  · obtain ⟨first, others, same⟩ := List.exists_cons_of_ne_nil (lines_ne_nil rest nothing)
    rw [withoutFinalFeed_cons '\n' _ fun _ => withLineFeeds_ne_nil rest nothing, ← joined, same,
      ofLines_cons_cons]
    rfl

/-- The joined lines of a text are the text with LF for each line end and without the last of
these at its end.

Proof: induction follows the replacement of the line ends. Each of them ends an empty line in
front of the lines behind it; any other character joins the first of these. -/
theorem ofLines_lines (text : Text) :
    ofLines (lines text) = text.withLineFeeds.withoutFinalFeed := by
  fun_induction withLineFeeds text with
  | case1 => rfl
  | case2 rest inductionHypothesis => exact ofLines_empty_cons_lines rest inductionHypothesis
  | case3 rest alone inductionHypothesis =>
    rw [lines_cons_break '\r' rest rfl fun more _ begins => alone more begins]
    exact ofLines_empty_cons_lines rest inductionHypothesis
  | case4 c rest _ noReturn inductionHypothesis =>
    by_cases isFeed : c = '\n'
    · rw [isFeed, lines_cons_lf]
      exact ofLines_empty_cons_lines rest inductionHypothesis
    · have unbroken : isBreak c = false := by simpa [isBreak, isFeed] using noReturn
      rw [lines_cons_unbroken c rest unbroken, ofLines_prependToLines, inductionHypothesis,
        withoutFinalFeed_cons c _ fun same => absurd same isFeed]

end Text

/-- An empty line at the end does not count among the lines that are kept. -/
theorem Line.trimEach_concat_empty (lines : List Line) :
    trimEach (lines ++ [.empty]) = trimEach lines := by
  have noText : Line.empty.trim.isEmpty = true := rfl
  rw [trimEach, trimEach, List.map_append, List.map_singleton, ← dropWhile_rdropWhile,
    List.rdropWhile_concat_pos _ _ _ noText, dropWhile_rdropWhile]

namespace Comment

/-- A comment whose description is set to its own text loses an empty line at the end of the
description. -/
theorem describe_descriptionText (comment : Comment) :
    comment.describe comment.descriptionText =
      { comment with description :=
          if comment.description.getLast? = some .empty then comment.description.dropLast
          else comment.description } := by
  rw [describe, descriptionText, Text.lines_ofLines_eq]

/-- It is written as before. -/
theorem source_describe_descriptionText (comment : Comment) :
    (comment.describe comment.descriptionText).source = comment.source := by
  rw [source_eq_iff (comment.describe _) comment rfl, writtenDescription_eq_iff,
    describe_descriptionText]
  by_cases endsEmpty : comment.description.getLast? = some .empty
  · obtain ⟨front, split⟩ := List.getLast?_eq_some_iff.mp endsEmpty
    rw [if_pos endsEmpty, split, List.dropLast_concat, Line.trimEach_concat_empty]
  · rw [if_neg endsEmpty]

/-- To set the description of a comment to its own text changes nothing but the lines of the
description, and of these only an empty one at the end is left out. The comment is written as
before.

The description that is set from a text is handed out as the text with LF in the place of each
line end, less the last of them if the text ends in it. -/
theorem copied_description :
    (∀ comment : Comment,
      comment.describe comment.descriptionText =
          { comment with description :=
              if comment.description.getLast? = some .empty then comment.description.dropLast
              else comment.description } ∧
        (comment.describe comment.descriptionText).source = comment.source) ∧
      ∀ text : Text,
        (ofDescription text).descriptionText = text.withLineFeeds.withoutFinalFeed := by
  refine ⟨?_, Text.ofLines_lines⟩
  intro comment
  exact ⟨comment.describe_descriptionText, comment.source_describe_descriptionText⟩

/-- Of three line ends behind the text, the last one is gone. -/
example : (ofDescription "a\r\n\n\r".toList).descriptionText = "a\n\n".toList := rfl

end Comment

end CommentBlock
