import CommentBlock.Proofs.Parsing

/-!
# Texts joined by a line feed

When two texts are joined by LF, the lines of the second are those that it has on
its own. The lines of the first may be joined by an empty one: that depends on
whether LF ends a line of it, completes a CR, or stands on a line alone. An empty
line carries nothing, so parsing does not see the difference.

Parsing therefore respects joining. The contents of the two texts are put together,
an error of the first comes first, and an error of the second keeps its fault and has
its line counted on behind the lines of the first. A line that carries nothing can
stand anywhere or be left out.
-/

namespace CommentBlock

namespace Comment

/-- A number added to all line numbers is added to that of the error. -/
theorem ofLines_add (number offset : Nat) (lines : List Line) :
    ofLines (number + offset) lines =
      (ofLines number lines).mapError fun error => ⟨error.line + offset, error.fault⟩ := by
  induction lines generalizing number with
  | nil => rfl
  | cons line rest inductionHypothesis =>
    have counted : number + offset + 1 = number + 1 + offset := by omega
    cases sound : (Reading.ofLine line).isFault with
    | true =>
      cases found : Reading.ofLine line with
      | fault fault => simp [ofLines, found, Except.mapError]
      | nothing | prose words | tag tag => simp [found, Reading.isFault] at sound
    | false =>
      rw [ofLines_cons _ line rest sound, ofLines_cons _ line rest sound, counted,
        inductionHypothesis]
      cases ofLines (number + 1) rest <;> rfl

/-- An empty line at the end of the lines, or none, is of no consequence. -/
theorem ofLines_append_gap (number : Nat) (lines gap : List Line)
    (shape : gap = [] ∨ gap = [.empty]) : ofLines number (lines ++ gap) = ofLines number lines := by
  rcases shape with rfl | rfl
  · rw [List.append_nil]
  · have nothing : ofLines (number + lines.length) [.empty] = .ok empty := rfl
    rw [ofLines_append, nothing]
    cases ofLines number lines with
    | error error => rfl
    | ok comment => exact congrArg Except.ok (append_empty comment)

/-- LF behind a text does not change the result of parsing it. -/
theorem parse_ended (text : Text) : parse (text ++ ['\n']) = parse text := by
  obtain ⟨gap, shape, split⟩ := Text.exists_lines_append text
  have ended : (text ++ ['\n']).lines = text.lines ++ gap := by
    rw [split, Text.lines, List.append_nil]
  rw [parse, ended, ofLines_append_gap 1 _ gap shape]
  rfl

/-- What two texts hold that are joined by LF is put together. -/
theorem parseLenient_append_lf (front back : Text) :
    parseLenient (front ++ '\n' :: back) = parseLenient front ++ parseLenient back := by
  obtain ⟨gap, shape, split⟩ := Text.exists_lines_append front
  have nothing : ofLinesLenient gap = empty := by
    rcases shape with rfl | rfl <;> rfl
  rw [parseLenient, split, ofLinesLenient_append, ofLinesLenient_append, nothing, append_empty]
  rfl

/-- Strict parsing of two texts that are joined by LF looks at the first before the
second, whose lines are numbered on. -/
theorem parse_append_lf (front back : Text) :
    parse (front ++ '\n' :: back) = (do
      let first ← parse front
      let second ← ofLines (1 + (front ++ ['\n']).lines.length) back.lines
      return first ++ second) := by
  rw [parse, Text.lines_append_lf, ofLines_append]
  change (parse (front ++ ['\n']) >>= _) = _
  rw [parse_ended]

/-- A line that carries nothing only moves the numbers of the lines behind it. -/
theorem ofLines_cons_silent (number : Nat) (line : Line) (rest : List Line)
    (silent : Reading.ofLine line = .nothing) :
    ofLines number (line :: rest) = ofLines (number + 1) rest := by
  have sound : (Reading.ofLine line).isFault = false := by
    rw [silent]
    rfl
  rw [ofLines_cons number line rest sound, silent]
  cases ofLines (number + 1) rest with
  | error error => rfl
  | ok comment => exact congrArg Except.ok (empty_append comment)

/-- A line that carries nothing makes no difference among others, except for the
number of the line of an error. -/
theorem parse_insert_silent (before after : List Line) (line : Line) (shorter longer : Text)
    (silent : Reading.ofLine line = .nothing) (without : shorter.lines = before ++ after)
    (inserted : longer.lines = before ++ line :: after) :
    parseLenient longer = parseLenient shorter ∧
      (parse longer).mapError ParseError.fault = (parse shorter).mapError ParseError.fault := by
  constructor
  · rw [parseLenient, parseLenient, inserted, without, ofLinesLenient_append,
      ofLinesLenient_append, ofLinesLenient, silent]
    exact congrArg (_ ++ ·) (empty_append _)
  · rw [parse, parse, inserted, without, ofLines_append, ofLines_append,
      ofLines_cons_silent _ line after silent, ofLines_add]
    cases ofLines 1 before with
    | error error => rfl
    | ok first => cases ofLines (1 + before.length) after <;> rfl

/-- Parsing respects the joining of texts by LF. Of the two texts, descriptions,
parameters and thrown exceptions follow one another, and a single tag of the second
stays. An error of the first text is that of both; failing that, an error of the
second is, with its line counted on behind the lines of the first; and without an
error the result is again what both hold together.

Hence a line that carries nothing can be inserted into the lines of a text or removed
from them at any place, and parsing gives the same comment or the same fault. -/
theorem parse_joined (front back : Text) :
    let together : Comment → Comment → Comment := fun first second =>
      { description := first.description ++ second.description
        var := second.var.or first.var
        returns := second.returns.or first.returns
        package := second.package.or first.package
        author := second.author.or first.author
        license := second.license.or first.license
        access := second.access.or first.access
        params := first.params ++ second.params
        throws := first.throws ++ second.throws }
    parseLenient (front ++ '\n' :: back) = together (parseLenient front) (parseLenient back) ∧
      parse (front ++ '\n' :: back) =
        (match parse front, parse back with
        | .error error, _ => .error error
        | .ok _, .error error =>
          .error ⟨error.line + (front ++ ['\n']).lines.length, error.fault⟩
        | .ok first, .ok second => .ok (together first second)) ∧
      ∀ (before after : List Line) (line : Line) (shorter longer : Text),
        Reading.ofLine line = .nothing → shorter.lines = before ++ after →
          longer.lines = before ++ line :: after →
            parseLenient longer = parseLenient shorter ∧
              (parse longer).mapError ParseError.fault =
                (parse shorter).mapError ParseError.fault := by
  intro together
  refine ⟨parseLenient_append_lf front back, ?_, parse_insert_silent⟩
  rw [parse_append_lf, ofLines_add]
  change (parse front >>= fun first => ((parse back).mapError _ >>= _)) = _
  cases parse front with
  | error error => rfl
  | ok first => cases parse back <;> rfl

/-- Of two texts that are joined the second has a fault. An unsupported tag between them
moves the fault, and no more. -/
theorem parse_joined_around_unsupported :
    let bound := Line.ofChars " * @var int $id".toList rfl
    let unsupported := Line.ofChars " * @todo".toList rfl
    let faulty := Line.ofChars " * @param int".toList rfl
    let shorter := bound.chars ++ '\n' :: faulty.chars
    let longer := bound.ended ++ unsupported.ended ++ faulty.chars
    parse shorter = .error ⟨2, .tooFewWords .param 4 3⟩ ∧
      parse longer = .error ⟨3, .tooFewWords .param 4 3⟩ ∧
      (parse longer).mapError ParseError.fault = (parse shorter).mapError ParseError.fault ∧
      parseLenient longer = parseLenient shorter := by
  intro bound unsupported faulty shorter longer
  obtain ⟨-, joined, inserting⟩ := parse_joined bound.chars faulty.chars
  have silent : Reading.ofLine unsupported = .nothing := rfl
  have without : shorter.lines = [bound] ++ [faulty] := rfl
  have inserted : longer.lines = [bound] ++ unsupported :: [faulty] := rfl
  obtain ⟨lenient, unmoved⟩ := inserting _ _ _ _ _ silent without inserted
  exact ⟨joined, rfl, unmoved, lenient⟩

/-- LF completes the CR in front of it, so the fault stands on the second line. -/
example : parse (" * Sizes\r".toList ++ '\n' :: " * @param int".toList) =
    .error ⟨2, .tooFewWords .param 4 3⟩ := rfl

end Comment

end CommentBlock
