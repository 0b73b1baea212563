import CommentBlock.Proofs.Faults
import CommentBlock.Proofs.Parsing

/-!
# Errors of strict parsing

Strict parsing ends at the first line with a fault. Its error says which line that
is, counted from one over all lines, and what is wrong with it. Which lines have a
fault, and which one, is told by their words at fixed positions, so the same is true
of the errors.

Lenient parsing reads on. It takes a line with a fault as it would take an empty
line, and of a text in which all such lines are empty strict parsing gives the same
comment.
-/

namespace CommentBlock

namespace Line

/-- A line is faulty exactly when a fault is read from it. -/
theorem isFault_iff (line : Line) : (Reading.ofLine line).isFault = true ↔ line.IsFaulty := by
  simp only [IsFaulty, ← Reading.ofLine_eq_fault_iff]
  cases Reading.ofLine line <;> simp [Reading.isFault]

/-- The other lines are sound. -/
theorem isFault_eq_false_iff (line : Line) :
    (Reading.ofLine line).isFault = false ↔ ¬ line.IsFaulty := by
  rw [← isFault_iff, Bool.not_eq_true]

instance (line : Line) : Decidable line.IsFaulty := decidable_of_iff _ line.isFault_iff

/-- An empty line in the place of a faulty one. -/
def withoutFault (line : Line) : Line := if line.IsFaulty then .empty else line

/-- No fault is left. -/
theorem isFault_withoutFault (line : Line) :
    (Reading.ofLine line.withoutFault).isFault = false := by
  rw [withoutFault]
  split
  · rfl
  · rwa [isFault_eq_false_iff]

/-- All else that the line holds is left. -/
theorem comment_withoutFault (line : Line) :
    (Reading.ofLine line.withoutFault).comment = (Reading.ofLine line).comment := by
  rw [withoutFault]
  by_cases faulty : line.IsFaulty
  · obtain ⟨fault, found⟩ := faulty
    rw [if_pos ⟨fault, found⟩, (Reading.ofLine_eq_fault_iff line fault).mpr found]
    rfl
  · rw [if_neg faulty]

end Line

/-- The lines of the text with LF after each, the faulty ones made empty. -/
def Text.withoutFaults (text : Text) : Text := ofEndedLines (text.lines.map Line.withoutFault)

namespace Comment

/-- Parsing fails at the first faulty line and with its fault. -/
theorem ofLines_eq_error_iff (number : Nat) (lines : List Line) (found : Nat) (fault : TagFault) :
    ofLines number lines = .error ⟨found, fault⟩ ↔
      ∃ before line after, lines = before ++ line :: after ∧ found = number + before.length ∧
        (∀ earlier ∈ before, ¬ earlier.IsFaulty) ∧ line.HasFault fault := by
  constructor
  · intro failed
    induction lines generalizing number with
    | nil => simp [ofLines] at failed
    | cons line rest inductionHypothesis =>
      by_cases faulty : line.IsFaulty
      · obtain ⟨own, read⟩ := faulty
        rw [ofLines, (Reading.ofLine_eq_fault_iff line own).mpr read] at failed
        obtain ⟨rfl, rfl⟩ := ParseError.mk.inj (Except.error.inj failed)
        exact ⟨[], line, rest, rfl, rfl, by simp, read⟩
      · have failedBehind : ofLines (number + 1) rest = .error ⟨found, fault⟩ := by
          rw [ofLines_cons number line rest (line.isFault_eq_false_iff.mpr faulty)] at failed
          cases parsed : ofLines (number + 1) rest <;> simp_all [Except.map]
        obtain ⟨before, first, after, rfl, rfl, sound, read⟩ :=
          inductionHypothesis (number + 1) failedBehind
        refine ⟨line :: before, first, after, rfl, ?_, ?_, read⟩
        · rw [List.length_cons]
          omega
        · exact List.forall_mem_cons.mpr ⟨faulty, sound⟩
  · rintro ⟨before, line, after, rfl, rfl, sound, read⟩
    have soundFront : ∀ earlier ∈ before, (Reading.ofLine earlier).isFault = false := by
      intro earlier member
      exact earlier.isFault_eq_false_iff.mpr (sound earlier member)
    rw [ofLines_append_error_of_sound_front number before _ soundFront, ofLines,
      (Reading.ofLine_eq_fault_iff line fault).mpr read]

/-- The same for a text. -/
theorem parse_eq_error_iff (text : Text) (number : Nat) (fault : TagFault) :
    parse text = .error ⟨number, fault⟩ ↔
      ∃ before line after, text.lines = before ++ line :: after ∧ number = before.length + 1 ∧
        (∀ earlier ∈ before, ¬ earlier.IsFaulty) ∧ line.HasFault fault := by
  simp only [parse, ofLines_eq_error_iff, Nat.add_comm 1]

/-- A text is refused exactly when one of its lines is faulty. -/
theorem exists_parse_error_iff (text : Text) :
    (∃ error, parse text = .error error) ↔ ∃ line ∈ text.lines, line.IsFaulty := by
  constructor
  · rintro ⟨⟨number, fault⟩, failed⟩
    obtain ⟨before, line, after, split, _, _, read⟩ :=
      (parse_eq_error_iff text number fault).mp failed
    have member : line ∈ text.lines := by simp [split]
    exact ⟨line, member, fault, read⟩
  · rintro ⟨line, member, faulty⟩
    cases parsed : parse text with
    | error error => exact ⟨error, rfl⟩
    | ok comment =>
      have sound : (Reading.ofLine line).isFault = false :=
        ((parse_eq_ok_iff text comment).mp parsed).1 line member
      exact absurd faulty (line.isFault_eq_false_iff.mp sound)

/-- Lines are parsed on their own exactly when none of them is faulty. -/
theorem exists_parse_ofEndedLines_iff (lines : List Line) :
    (∃ comment, parse (Text.ofEndedLines lines) = .ok comment) ↔
      ∀ line ∈ lines, ¬ line.IsFaulty := by
  simp only [parse_eq_ok_iff, Text.lines_ofEndedLines, Line.isFault_eq_false_iff]
  simp

/-- Lenient parsing takes faulty lines as empty ones. -/
theorem ofLinesLenient_withoutFault (lines : List Line) :
    ofLinesLenient (lines.map Line.withoutFault) = ofLinesLenient lines := by
  induction lines with
  | nil => rfl
  | cons line rest inductionHypothesis =>
    rw [List.map_cons, ofLinesLenient, ofLinesLenient, Line.comment_withoutFault,
      inductionHypothesis]

/-- Strict parsing of the text without its faults gives the lenient result. -/
theorem parse_withoutFaults (text : Text) :
    parse text.withoutFaults = .ok (parseLenient text) := by
  rw [parse_eq_ok_iff, Text.withoutFaults, Text.lines_ofEndedLines]
  constructor
  · intro line member
    obtain ⟨original, _, rfl⟩ := List.mem_map.mp member
    exact original.isFault_withoutFault
  · rw [parseLenient, Text.lines_ofEndedLines, ofLinesLenient_withoutFault]
    rfl

/-- The two modes agree. Strict parsing succeeds exactly on texts without faulty
lines, with the lenient result; it fails with the fault and the number of a line in
front of which all is parsed; and lenient parsing gives what strict parsing gives of
the text in which the faulty lines are empty. Strict parsing is what parsing in the
strict mode is, and the conversion of a text too. -/
theorem parsing_modes_agree (text : Text) :
    (∀ comment, parse text = .ok comment ↔
        (∀ line ∈ text.lines, ¬ line.IsFaulty) ∧ parseLenient text = comment) ∧
      (∀ number fault, parse text = .error ⟨number, fault⟩ ↔
        ∃ before line after, text.lines = before ++ line :: after ∧ number = before.length + 1 ∧
          line.HasFault fault ∧ ∃ comment, parse (Text.ofEndedLines before) = .ok comment) ∧
      parse text.withoutFaults = .ok (parseLenient text) ∧
      parseAs .strict text = parse text ∧ ofText text = parse text := by
  refine ⟨?_, ?_, parse_withoutFaults text, rfl, rfl⟩
  · intro comment
    simp only [parse_eq_ok_iff, Line.isFault_eq_false_iff]
  · intro number fault
    simp only [parse_eq_error_iff, exists_parse_ofEndedLines_iff, and_comm]

/-- Strict parsing fails exactly when the words of some line stand in the way of a
tag, and the first such line decides the error: its kind and its number of words if
these are too few, and else the missing name of a variable. No other field is ever
the cause. On a line with a known sign and enough words, each position from which a
field is taken is in range. -/
theorem parse_refuses_iff (text : Text) :
    ((∃ error, parse text = .error error) ↔ ∃ line ∈ text.lines, line.IsFaulty) ∧
      (∀ number fault, parse text = .error ⟨number, fault⟩ ↔
        ∃ before line after, text.lines = before ++ line :: after ∧ number = before.length + 1 ∧
          (∀ earlier ∈ before, ¬ earlier.IsFaulty) ∧ line.HasFault fault) ∧
      (∀ number error, parse text = .error ⟨number, .badField error⟩ →
        ∃ kind, (kind = .var ∨ kind = .param) ∧ error = .missing kind .variableName) ∧
      (∀ kind : Kind, kind.minWords = kind.requiredFields.length + 2) ∧
      ∀ line ∈ text.lines, ∀ kind, line.HasSign kind → kind.minWords ≤ line.tokens.length →
        ∃ draft, Draft.atPositions? (Text.words line.chars) kind = some draft ∧
          Reading.ofLine line = .ofDraft draft := by
  refine ⟨exists_parse_error_iff text, parse_eq_error_iff text, ?_, Kind.minWords_eq, ?_⟩
  · intro number error failed
    obtain ⟨_, line, _, _, _, _, read⟩ := (parse_eq_error_iff text _ _).mp failed
    cases read with
    | nameless kind _ isVariable _ => exact ⟨kind, isVariable, rfl⟩
  · intro line _ kind signed enough
    exact line.exists_draft kind signed enough

/-- Prose has no fault, the missing name comes first, and the missing words after it
are not reported. -/
example : parse " * Sizes\r\n * @var int $ total\r * @param int".toList =
    .error ⟨2, .badField (.missing .var .variableName)⟩ := rfl

end Comment

end CommentBlock
