import CommentBlock.Proofs.Parsing
import CommentBlock.Proofs.Trimming

/-!
# Reading the block of a comment

The block of a comment is read as what its description holds behind stars, with
the written tags behind. The frame and the bare lines add nothing, and of the
description only the words of its lines count: indentation, blank lines and the
width of the gaps between words are not read back.

So strict parsing of a block succeeds exactly when no line of the description has
a fault behind a star.
-/

namespace CommentBlock

/-- The words of each line that has any. -/
def Line.phrases (lines : List Line) : List Phrase :=
  (lines.map fun line => Text.words line.chars).filter fun phrase => !phrase.isEmpty

/-- What the phrases hold behind stars, faults left out. -/
def Comment.ofPhrases : List Phrase → Comment
  | [] => empty
  | phrase :: rest => (Reading.ofStarred phrase).comment ++ ofPhrases rest

namespace Line

/-- The phrases of two groups of lines follow one another. -/
theorem phrases_append (front back : List Line) :
    phrases (front ++ back) = phrases front ++ phrases back := by
  simp [phrases]

/-- A property that no words have in any case holds of all phrases exactly when it
holds of the words of all lines. -/
theorem forall_mem_phrases (property : Phrase → Prop) (noWords : property []) (lines : List Line) :
    (∀ phrase ∈ phrases lines, property phrase) ↔
      ∀ line ∈ lines, property (Text.words line.chars) := by
  constructor
  · intro ofPhrases line member
    cases words : Text.words line.chars with
    | nil => exact noWords
    | cons word rest =>
      apply ofPhrases
      exact List.mem_filter.mpr ⟨List.mem_map.mpr ⟨line, member, words⟩, rfl⟩
  · intro ofLines phrase member
    obtain ⟨line, inside, rfl⟩ := List.mem_map.mp (List.mem_filter.mp member).1
    exact ofLines line inside

/-- Empty lines have no phrases. -/
theorem phrases_eq_nil (lines : List Line) (empty : ∀ line ∈ lines, line.isEmpty = true) :
    phrases lines = [] := by
  have noWords : ∀ line ∈ lines, Text.words line.chars = [] := by
    intro line member
    rw [List.isEmpty_iff.mp (empty line member)]
    rfl
  simpa [phrases] using noWords

/-- Trimming lines keeps their phrases. -/
theorem phrases_map_trim (lines : List Line) : phrases (lines.map trim) = phrases lines := by
  have sameWords : (fun line : Line => Text.words line.trim.chars) =
      fun line => Text.words line.chars := funext fun line => Text.words_trim line.chars
  simp [phrases, Function.comp_def, sameWords]

/-- Leaving out empty lines in front keeps the phrases. -/
theorem phrases_dropWhile (lines : List Line) :
    phrases (lines.dropWhile isEmpty) = phrases lines := by
  have noPhrases : phrases (lines.takeWhile isEmpty) = [] := by
    apply phrases_eq_nil
    intro line member
    exact List.mem_takeWhile_imp member
  calc phrases (lines.dropWhile isEmpty)
      = phrases (lines.takeWhile isEmpty ++ lines.dropWhile isEmpty) := by
        rw [phrases_append, noPhrases, List.nil_append]
    _ = phrases lines := by rw [List.takeWhile_append_dropWhile]

/-- Leaving out empty lines behind keeps the phrases. -/
theorem phrases_rdropWhile (lines : List Line) :
    phrases (lines.rdropWhile isEmpty) = phrases lines := by
  have noPhrases : phrases (lines.rtakeWhile isEmpty) = [] := by
    apply phrases_eq_nil
    intro line member
    exact List.mem_rtakeWhile_imp member
  calc phrases (lines.rdropWhile isEmpty)
      = phrases (lines.rdropWhile isEmpty ++ lines.rtakeWhile isEmpty) := by
        rw [phrases_append, noPhrases, List.append_nil]
    _ = phrases lines := by rw [List.rdropWhile_append_rtakeWhile]

/-- A description in normal form has the phrases of the description. -/
theorem phrases_normalLines (description : List Line) :
    phrases (Comment.normalLines description) = phrases description := by
  rw [Comment.normalLines_eq, trimEach, phrases_rdropWhile, phrases_dropWhile, phrases_map_trim]

end Line

namespace Comment

/-- Lines behind stars hold what their phrases hold. -/
theorem ofLinesLenient_starred (lines : List Line) :
    ofLinesLenient (lines.map Line.starred) = ofPhrases (Line.phrases lines) := by
  induction lines with
  | nil => rfl
  | cons line rest inductionHypothesis =>
    rw [List.map_cons, ofLinesLenient, Reading.ofLine_starred, inductionHypothesis]
    cases words : Text.words line.chars with
    | nil =>
      have same : Line.phrases (line :: rest) = Line.phrases rest := by simp [Line.phrases, words]
      rw [same]
      exact empty_append _
    | cons word more =>
      have same : Line.phrases (line :: rest) = (word :: more) :: Line.phrases rest := by
        simp [Line.phrases, words]
      rw [same, ofPhrases]

/-- Lines behind stars have no fault exactly when their phrases have none. -/
theorem isFault_starred (lines : List Line) :
    (∀ line ∈ lines.map Line.starred, (Reading.ofLine line).isFault = false) ↔
      ∀ phrase ∈ Line.phrases lines, (Reading.ofStarred phrase).isFault = false := by
  simp only [List.forall_mem_map, Reading.ofLine_starred]
  exact (Line.forall_mem_phrases (fun phrase => (Reading.ofStarred phrase).isFault = false) rfl
    lines).symm

/-- The body holds what the description holds behind stars, and the written tags. -/
theorem ofLinesLenient_body (comment : Comment) :
    ofLinesLenient comment.body =
      ofPhrases (Line.phrases comment.description) ++ comment.writtenContent := by
  have noContent : ofLinesLenient comment.separator = empty := by
    rw [separator]
    split
    · rfl
    · rw [ofLinesLenient_singleton, Reading.ofLine_bare]
      rfl
  rw [body, ofLinesLenient_append, ofLinesLenient_append, writtenDescription,
    ofLinesLenient_starred, Line.phrases_normalLines, noContent, append_empty,
    ofLinesLenient_tags, insertAll_writtenTags]

/-- The separator has no fault. -/
theorem isFault_separator (comment : Comment) :
    ∀ line ∈ comment.separator, (Reading.ofLine line).isFault = false := by
  intro line member
  rw [separator] at member
  split at member
  · simp at member
  · rw [List.mem_singleton.mp member, Reading.ofLine_bare]
    rfl

/-- The body has no fault exactly when the description has none behind stars. -/
theorem isFault_body (comment : Comment) :
    (∀ line ∈ comment.body, (Reading.ofLine line).isFault = false) ↔
      ∀ phrase ∈ Line.phrases comment.description, (Reading.ofStarred phrase).isFault = false := by
  rw [body, List.forall_mem_append, List.forall_mem_append, writtenDescription, isFault_starred,
    Line.phrases_normalLines]
  constructor
  · rintro ⟨⟨sound, _⟩, _⟩
    exact sound
  · intro sound
    exact ⟨⟨sound, isFault_separator comment⟩, isFault_tags _⟩

/-- The frame of the block adds nothing to its body. -/
theorem ofLinesLenient_sourceLines (comment : Comment) :
    ofLinesLenient comment.sourceLines = ofLinesLenient comment.body := by
  rw [sourceLines]
  by_cases noBody : comment.body = []
  · rw [if_pos noBody, noBody]
  · rw [if_neg noBody, ofLinesLenient_append, ofLinesLenient_singleton,
      Reading.ofLine_closing, ofLinesLenient, ofLinesLenient, Reading.ofLine_empty,
      Reading.ofLine_opening]
    change empty ++ (empty ++ _) ++ empty = _
    rw [empty_append, empty_append, append_empty]

/-- The frame of the block has no fault of its own. -/
theorem isFault_sourceLines (comment : Comment) :
    (∀ line ∈ comment.sourceLines, (Reading.ofLine line).isFault = false) ↔
      ∀ line ∈ comment.body, (Reading.ofLine line).isFault = false := by
  rw [sourceLines]
  by_cases noBody : comment.body = []
  · rw [if_pos noBody, noBody]
  · have emptySound : (Reading.ofLine .empty).isFault = false := rfl
    have openingSound : (Reading.ofLine .opening).isFault = false := rfl
    have closingSound : (Reading.ofLine .closing).isFault = false := rfl
    rw [if_neg noBody, List.forall_mem_append, List.forall_mem_cons, List.forall_mem_cons]
    simp only [emptySound, openingSound, closingSound, List.forall_mem_singleton, true_and,
      and_true]

/-- Lenient parsing of the block of a comment gives what its description holds behind
stars, with the written tags behind. -/
theorem parseLenient_source (comment : Comment) :
    parseLenient comment.source =
      ofPhrases (Line.phrases comment.description) ++ comment.writtenContent := by
  rw [parseLenient, source, Text.lines_ofEndedLines, ofLinesLenient_sourceLines,
    ofLinesLenient_body]

/-- The block of a comment is parsed as what its description holds behind stars
with the written tags behind, and strict parsing fails only because of a fault in
the description. -/
theorem parse_source_eq_ok_iff (comment result : Comment) :
    parse comment.source = .ok result ↔
      (∀ phrase ∈ Line.phrases comment.description, (Reading.ofStarred phrase).isFault = false) ∧
        ofPhrases (Line.phrases comment.description) ++ comment.writtenContent = result := by
  rw [parse_eq_ok_iff, parseLenient_source, source, Text.lines_ofEndedLines, isFault_sourceLines,
    isFault_body]

end Comment

end CommentBlock
