import CommentBlock.Proofs.LineEnds

/-!
# The parts of a text

A text is made of lines that are ended by LF, CR or CR LF, and of a rest behind the last
end, which is empty if the text stops there. As long as no CR is followed by an empty
line that LF ends, these parts are told by the text: a line reaches up to the next CR or
LF, and the end behind it is as long as it can be. So every text has parts, and it has
no others.

The lines of a text are the lines of its parts. The rest counts as a line if it has
characters; an empty rest is the only thing that is left out.
-/

namespace CommentBlock

/-- Lines with ends that are apart from each other, and what stands behind the last end. -/
structure LineParts where
  ended : List EndedLine
  rest : Line
  apart : EndedLine.AreApart ended

namespace LineParts

/-- The parts put together. -/
def text (parts : LineParts) : Text := parts.ended.flatMap EndedLine.text ++ parts.rest.chars

/-- The lines among the parts. A line without an end has characters. -/
def lines (parts : LineParts) : List Line :=
  parts.ended.map EndedLine.line ++ if parts.rest.chars.isEmpty then [] else [parts.rest]

/-- The lines of a text are those of its parts. -/
theorem lines_text (parts : LineParts) : parts.text.lines = parts.lines := by
  have readBack := Text.lines_endedLines parts.ended (some parts.rest) parts.apart
  rw [Option.toList_some, List.flatMap_singleton] at readBack
  rw [text, readBack, lines]
  cases noRest : parts.rest.chars.isEmpty <;> simp [noRest]

/-- Every text has parts. -/
theorem exists_text_eq (text : Text) : ∃ parts : LineParts, parts.text = text := by
  obtain ⟨ended, last, apart, _, rfl⟩ := Text.exists_endedLines text
  cases last with
  | none => exact ⟨⟨ended, .empty, apart⟩, by simp [LineParts.text, Line.empty]⟩
  | some line => exact ⟨⟨ended, line, apart⟩, by simp [LineParts.text]⟩

end LineParts

/-- Ends that are not completed by what stands behind them are told by the text that
begins with them. -/
theorem LineEnd.eq_of_chars_append (first second : LineEnd) (behind other : Text)
    (same : first.chars ++ behind = second.chars ++ other)
    (alone : first = .cr → behind.head? ≠ some '\n')
    (otherAlone : second = .cr → other.head? ≠ some '\n') :
    first = second ∧ behind = other := by
  cases first <;> cases second <;> grind [chars]

namespace EndedLine

/-- A line reaches up to the first CR or LF. -/
theorem takeWhile_text_append (ended : EndedLine) (behind : Text) :
    (ended.text ++ behind).takeWhile (fun c => !isBreak c) = ended.line.chars := by
  have unbroken : ∀ c ∈ ended.line.chars, (!isBreak c) = true := by
    simpa using ended.line.unbroken
  rw [text, List.append_assoc, List.takeWhile_append_of_pos unbroken]
  cases ended.ending <;> simp [LineEnd.chars, isBreak]

/-- A line and its end are told by the text that begins with them. -/
theorem eq_of_text_append (first second : EndedLine) (behind other : Text)
    (same : first.text ++ behind = second.text ++ other)
    (alone : first.ending = .cr → behind.head? ≠ some '\n')
    (otherAlone : second.ending = .cr → other.head? ≠ some '\n') :
    first = second ∧ behind = other := by
  have sameChars : first.line.chars = second.line.chars := by
    rw [← takeWhile_text_append first behind, same, takeWhile_text_append]
  have sameEnds : first.ending.chars ++ behind = second.ending.chars ++ other := by
    rw [text, text, sameChars, List.append_assoc, List.append_assoc] at same
    exact List.append_cancel_left same
  obtain ⟨sameEnding, sameBehind⟩ :=
    LineEnd.eq_of_chars_append _ _ behind other sameEnds alone otherAlone
  refine ⟨?_, sameBehind⟩
  cases first
  cases second
  rw [mk.injEq]
  exact ⟨Line.eq_of_chars_eq _ _ sameChars, sameEnding⟩

/-- A line is no text that begins with a line and its end. -/
theorem chars_ne_text_append (line : Line) (ended : EndedLine) (behind : Text) :
    line.chars ≠ ended.text ++ behind := by
  intro same
  have broken : ∃ c ∈ ended.ending.chars, isBreak c = true := by
    cases ended.ending <;> exact ⟨_, List.mem_cons_self, rfl⟩
  obtain ⟨c, member, isEnd⟩ := broken
  have inside : c ∈ line.chars := by
    rw [same, text]
    simp [member]
  rw [line.unbroken c inside] at isEnd
  cases isEnd

/-- Lines with ends that are apart, and the rest behind them, are told by the text.

Proof: by induction on the lines. The two texts begin with the same line and end, and what
follows is the same as well. If there is a line with an end in one of them only, the rest
of the other would hold a CR or LF. -/
theorem eq_of_flatMap_append (ended others : List EndedLine) (rest otherRest : Line)
    (apart : AreApart ended) (othersApart : AreApart others)
    (same : ended.flatMap text ++ rest.chars = others.flatMap text ++ otherRest.chars) :
    ended = others ∧ rest = otherRest := by
  induction ended generalizing others with
  | nil =>
    cases others with
    | nil => exact ⟨rfl, rest.eq_of_chars_eq otherRest same⟩
    | cons other more =>
      rw [List.flatMap_cons, List.append_assoc] at same
      exact absurd same (chars_ne_text_append rest other _)
  | cons first behind inductionHypothesis =>
    cases others with
    | nil =>
      rw [List.flatMap_cons, List.append_assoc] at same
      exact absurd same.symm (chars_ne_text_append otherRest first _)
    | cons other more =>
      rw [List.flatMap_cons, List.flatMap_cons, List.append_assoc, List.append_assoc] at same
      obtain ⟨sameFirst, sameBehind⟩ := eq_of_text_append first other _ _ same
        (first.alone_of_areApart behind _ apart rest.head?_ne_lf)
        (other.alone_of_areApart more _ othersApart otherRest.head?_ne_lf)
      obtain ⟨sameMore, sameRest⟩ := inductionHypothesis more
        ((first.areApart_cons_iff behind).mp apart).2
        ((other.areApart_cons_iff more).mp othersApart).2 sameBehind
      exact ⟨by rw [sameFirst, sameMore], sameRest⟩

end EndedLine

/-- The parts of a text are told by it. -/
theorem LineParts.text_injective : Function.Injective LineParts.text := by
  rintro ⟨ended, rest, apart⟩ ⟨others, otherRest, othersApart⟩ same
  obtain ⟨rfl, rfl⟩ :=
    EndedLine.eq_of_flatMap_append ended others rest otherRest apart othersApart same
  rfl

end CommentBlock
