import Mathlib.Data.List.Chain
import CommentBlock.Proofs.Lines

/-!
# Lines with ends of any kind

A line is ended by LF, by CR or by the two together, and each line of a text may have
another end. Lines with such ends are read back as they are, and what follows the last
of them is read on its own.

Two ends must not be read as one. That happens where a line ends in CR and the next one
is empty and ends in LF: its end completes the CR, and the empty line is gone. There is
no other way, since an LF that follows a CR can only stand at the front of an empty line.
-/

namespace CommentBlock

/-- What ends a line. -/
inductive LineEnd where
  | lf
  | cr
  | crlf
  deriving DecidableEq

/-- The characters of the line end. -/
def LineEnd.chars : LineEnd → Text
  | .lf => ['\n']
  | .cr => ['\r']
  | .crlf => ['\r', '\n']

/-- A line and its end. -/
structure EndedLine where
  line : Line
  ending : LineEnd
  deriving DecidableEq

namespace EndedLine

/-- The line with its end after it. -/
def text (ended : EndedLine) : Text := ended.line.chars ++ ended.ending.chars

/-- Whether the end of the first line and all of the second are one line end. -/
def MeltsWith (first second : EndedLine) : Prop :=
  first.ending = .cr ∧ second.line.chars = [] ∧ second.ending = .lf

instance (first second : EndedLine) : Decidable (first.MeltsWith second) :=
  inferInstanceAs (Decidable (_ ∧ _ ∧ _))

/-- Whether no two neighbours of the lines have ends that are read as one. -/
def AreApart (ended : List EndedLine) : Prop :=
  ended.IsChain fun first second => ¬ first.MeltsWith second

instance (ended : List EndedLine) : Decidable (AreApart ended) :=
  inferInstanceAs (Decidable (ended.IsChain _))

/-- The text of the line begins with LF exactly if the line is empty and ended by LF. -/
theorem head?_text_eq_lf_iff (ended : EndedLine) :
    ended.text.head? = some '\n' ↔ ended.line.chars = [] ∧ ended.ending = .lf := by
  obtain ⟨⟨chars, unbroken⟩, ending⟩ := ended
  cases chars with
  | nil => cases ending <;> simp [text, LineEnd.chars]
  | cons c rest =>
    have noFeed : c ≠ '\n' := by
      rintro rfl
      exact absurd (unbroken '\n' List.mem_cons_self) (by decide)
    simp [text, noFeed]

/-- The text of a line has characters. -/
theorem text_ne_nil (ended : EndedLine) : ended.text ≠ [] := by
  cases shape : ended.ending <;> simp [text, LineEnd.chars, shape]

/-- A line is apart from the lines behind it unless it ends in CR and their text begins
with LF. -/
theorem areApart_cons_iff (first : EndedLine) (others : List EndedLine) :
    AreApart (first :: others) ↔
      (first.ending = .cr → (others.flatMap text).head? ≠ some '\n') ∧ AreApart others := by
  cases others with
  | nil => simp [AreApart]
  | cons second more =>
    have sameHead : ((second :: more).flatMap text).head? = second.text.head? := by
      rw [List.flatMap_cons, List.head?_append_of_ne_nil _ second.text_ne_nil]
    rw [AreApart, List.isChain_cons_cons, sameHead, Ne, head?_text_eq_lf_iff, MeltsWith, not_and]
    exact Iff.rfl

/-- Behind the CR of a line that is apart from the others stands no LF, unless all of them
are missing and the rest of the text begins with it. -/
theorem alone_of_areApart (first : EndedLine) (others : List EndedLine) (rest : Text)
    (apart : AreApart (first :: others)) (noFeed : rest.head? ≠ some '\n') :
    first.ending = .cr → (others.flatMap text ++ rest).head? ≠ some '\n' := by
  intro isReturn
  have noFeedBehind := ((first.areApart_cons_iff others).mp apart).1 isReturn
  cases shape : others.flatMap text with
  | nil => exact noFeed
  | cons c more =>
    rw [shape] at noFeedBehind
    exact noFeedBehind

end EndedLine

/-- A line does not begin with LF. -/
theorem Line.head?_ne_lf (line : Line) : line.chars.head? ≠ some '\n' := by
  intro begins
  exact line.not_mem_break.2 (List.mem_of_mem_head? begins)

namespace Text

/-- A line with its end is the first line of a text, unless LF follows its CR. -/
theorem lines_ended_append (ended : EndedLine) (rest : Text)
    (alone : ended.ending = .cr → rest.head? ≠ some '\n') :
    lines (ended.text ++ rest) = ended.line :: lines rest := by
  obtain ⟨⟨chars, unbroken⟩, ending⟩ := ended
  induction chars with
  | nil =>
    cases ending with
    | lf => exact lines_cons_lf rest
    | cr =>
      apply lines_cons_break '\r' rest rfl
      rintro more - rfl
      exact alone rfl rfl
    | crlf => simp [EndedLine.text, LineEnd.chars, lines, Line.empty]
  | cons c more inductionHypothesis =>
    obtain ⟨first, others⟩ := List.forall_mem_cons.mp unbroken
    change lines (c :: (EndedLine.text ⟨⟨more, others⟩, ending⟩ ++ rest)) = _
    rw [lines_cons_unbroken c _ first, inductionHypothesis others alone]
    rfl

/-- Lines with ends that are apart are read back, and the text behind them is read as
it is on its own unless it completes the last end. -/
theorem lines_flatMap_ended (ended : List EndedLine) (rest : Text)
    (apart : EndedLine.AreApart ended) (noFeed : rest.head? ≠ some '\n') :
    lines (ended.flatMap EndedLine.text ++ rest) = ended.map EndedLine.line ++ lines rest := by
  induction ended with
  | nil => rfl
  | cons first others inductionHypothesis =>
    have alone := first.alone_of_areApart others rest apart noFeed
    have apartOthers : EndedLine.AreApart others := ((first.areApart_cons_iff others).mp apart).2
    rw [List.flatMap_cons, List.append_assoc, lines_ended_append first _ alone,
      inductionHypothesis apartOthers]
    rfl

/-- The open line behind lines with ends is read back too, unless it is empty. -/
theorem lines_endedLines (ended : List EndedLine) (last : Option Line)
    (apart : EndedLine.AreApart ended) :
    lines (ended.flatMap EndedLine.text ++ last.toList.flatMap Line.chars) =
      ended.map EndedLine.line ++ last.toList.filter fun line => !line.chars.isEmpty := by
  cases last with
  | none => exact lines_flatMap_ended ended [] apart (by simp)
  | some line =>
    rw [Option.toList_some, List.flatMap_singleton,
      lines_flatMap_ended ended _ apart line.head?_ne_lf]
    cases shape : line.chars with
    | nil => simp [shape, lines]
    | cons c rest =>
      have filled : line.chars ≠ [] := by simp [shape]
      rw [← shape, lines_chars line filled]
      simp [shape]

/-- CR and LF around an empty line are read as one end, and so they are not apart. -/
example : lines ([⟨.empty, .cr⟩, ⟨.empty, .lf⟩].flatMap EndedLine.text) = [.empty] ∧
    ¬ EndedLine.AreApart [⟨.empty, .cr⟩, ⟨.empty, .lf⟩] := by
  exact ⟨rfl, by decide⟩

/-- Every text is made up of lines with ends that are apart and, if it does not end there,
of an open line with characters.

Proof: induction follows the cutting of the text into lines. A line end in front makes an
empty line with this end, and any other character joins the first line behind it. -/
theorem exists_endedLines (text : Text) :
    ∃ (ended : List EndedLine) (last : Option Line), EndedLine.AreApart ended ∧
      (∀ line ∈ last, line.chars ≠ []) ∧
      text = ended.flatMap EndedLine.text ++ last.toList.flatMap Line.chars := by
  fun_induction lines text with
  | case1 => exact ⟨[], none, .nil, by simp, rfl⟩
  | case2 rest inductionHypothesis =>
    obtain ⟨ended, last, apart, filled, made⟩ := inductionHypothesis
    refine ⟨⟨.empty, .crlf⟩ :: ended, last, ?_, filled, congrArg ('\r' :: '\n' :: ·) made⟩
    exact (EndedLine.areApart_cons_iff _ ended).mpr ⟨by simp, apart⟩
  | case3 c rest _ unbroken inductionHypothesis =>
    obtain ⟨ended, last, apart, filled, made⟩ := inductionHypothesis
    have joined := congrArg (c :: ·) made
    cases ended with
    | nil =>
      cases last with
      | none => exact ⟨[], some (Line.empty.cons c unbroken), .nil, by simp [Line.cons], joined⟩
      | some line => exact ⟨[], some (line.cons c unbroken), .nil, by simp [Line.cons], joined⟩
    | cons first others =>
      refine ⟨⟨first.line.cons c unbroken, first.ending⟩ :: others, last, ?_, filled, joined⟩
      rwa [EndedLine.areApart_cons_iff] at apart ⊢
  | case4 c rest alone unbroken inductionHypothesis =>
    obtain ⟨ended, last, apart, filled, made⟩ := inductionHypothesis
    have broken : isBreak c = true := by simpa using unbroken
    have isEnd : c = '\n' ∨ c = '\r' := by simpa [isBreak] using broken
    rcases isEnd with rfl | rfl
    · refine ⟨⟨.empty, .lf⟩ :: ended, last, ?_, filled, congrArg ('\n' :: ·) made⟩
      exact (EndedLine.areApart_cons_iff _ ended).mpr ⟨by simp, apart⟩
    · refine ⟨⟨.empty, .cr⟩ :: ended, last, ?_, filled, congrArg ('\r' :: ·) made⟩
      refine (EndedLine.areApart_cons_iff _ ended).mpr ⟨?_, apart⟩
      rintro - begins
      obtain ⟨more, shape⟩ := List.head?_eq_some_iff.mp begins
      rw [shape] at made
      exact alone _ rfl made

end Text

end CommentBlock
