import CommentBlock.Comment.Parser
import CommentBlock.Proofs.Content
import CommentBlock.Proofs.Lines
import CommentBlock.Proofs.Readings

/-!
# What parsing gives

Strict parsing succeeds exactly when no line has a fault, and then it gives what
lenient parsing gives. Lenient parsing puts together what the lines hold, so the
contents of two parts of a text are put together too. The numbers of lines matter
for errors only.

Line by line, parsing comes to a loop that starts with the empty comment: prose goes
behind the description, a tag is inserted, and a fault ends the loop or is passed over.

The lines of tags are read back as these tags in order.
-/

namespace CommentBlock

/-- Whether the line holds no tag although its sign is known. -/
def Reading.isFault : Reading → Bool
  | .fault _ => true
  | _ => false

namespace Comment

/-- A line without a fault adds what it holds to what the lines behind it hold. -/
theorem ofLines_cons (number : Nat) (line : Line) (rest : List Line)
    (sound : (Reading.ofLine line).isFault = false) :
    ofLines number (line :: rest) =
      (ofLines (number + 1) rest).map ((Reading.ofLine line).comment ++ ·) := by
  rw [ofLines]
  cases found : Reading.ofLine line with
  | fault fault => simp [found, Reading.isFault] at sound
  | nothing | prose words | tag tag => rfl

/-- Parsing succeeds exactly on lines without faults, with the lenient result. -/
theorem ofLines_eq_ok_iff (number : Nat) (lines : List Line) (comment : Comment) :
    ofLines number lines = .ok comment ↔
      (∀ line ∈ lines, (Reading.ofLine line).isFault = false) ∧
        ofLinesLenient lines = comment := by
  induction lines generalizing number comment with
  | nil => simp [ofLines, ofLinesLenient]
  | cons line rest inductionHypothesis =>
    cases sound : (Reading.ofLine line).isFault with
    | true =>
      cases found : Reading.ofLine line with
      | fault fault => simp [ofLines, found, Reading.isFault]
      | nothing | prose words | tag tag => simp [found, Reading.isFault] at sound
    | false =>
      rw [ofLines_cons number line rest sound, ofLinesLenient, List.forall_mem_cons]
      have step :
          (ofLines (number + 1) rest).map ((Reading.ofLine line).comment ++ ·) = .ok comment ↔
            ∃ more, ofLines (number + 1) rest = .ok more ∧
              (Reading.ofLine line).comment ++ more = comment := by
        cases ofLines (number + 1) rest <;> simp [Except.map]
      simp only [step, inductionHypothesis, sound, true_and]
      constructor
      · rintro ⟨more, ⟨restSound, rfl⟩, same⟩
        exact ⟨restSound, same⟩
      · rintro ⟨restSound, same⟩
        exact ⟨_, ⟨restSound, rfl⟩, same⟩

/-- The same for a text. -/
theorem parse_eq_ok_iff (text : Text) (comment : Comment) :
    parse text = .ok comment ↔
      (∀ line ∈ text.lines, (Reading.ofLine line).isFault = false) ∧
        parseLenient text = comment :=
  ofLines_eq_ok_iff 1 text.lines comment

/-- A comment that parsing gives in either mode is the one of lenient parsing. -/
theorem parseLenient_of_parseAs (mode : Mode) (text : Text) (comment : Comment)
    (parsed : parseAs mode text = .ok comment) : parseLenient text = comment := by
  cases mode with
  | strict => exact ((parse_eq_ok_iff text comment).mp parsed).2
  | lenient => exact Except.ok.inj parsed

/-- A comment that strict parsing gives is given in either mode. -/
theorem parseAs_of_parse (mode : Mode) (text : Text) (comment : Comment)
    (parsed : parse text = .ok comment) : parseAs mode text = .ok comment := by
  cases mode with
  | strict => exact parsed
  | lenient => exact congrArg Except.ok (parseLenient_of_parseAs .strict text comment parsed)

/-- Lines without faults are parsed, with the lenient result. -/
theorem ofLines_of_sound (number : Nat) (lines : List Line)
    (sound : ∀ line ∈ lines, (Reading.ofLine line).isFault = false) :
    ofLines number lines = .ok (ofLinesLenient lines) :=
  (ofLines_eq_ok_iff number lines _).mpr ⟨sound, rfl⟩

/-- Two groups of lines are parsed one after the other. The numbers of the second
group go on where those of the first end. -/
theorem ofLines_append (number : Nat) (front back : List Line) :
    ofLines number (front ++ back) = (do
      let first ← ofLines number front
      let second ← ofLines (number + front.length) back
      return first ++ second) := by
  induction front generalizing number with
  | nil =>
    change ofLines number back = (ofLines number back >>= fun second => .ok (empty ++ second))
    cases ofLines number back with
    | error error => rfl
    | ok second => exact congrArg Except.ok (empty_append second).symm
  | cons line rest inductionHypothesis =>
    have counted : number + (line :: rest).length = number + 1 + rest.length := by
      rw [List.length_cons]
      omega
    cases sound : (Reading.ofLine line).isFault with
    | true =>
      -- The fault ends the parsing of both, before the two groups part.
      cases found : Reading.ofLine line with
      | fault fault => simp [ofLines, found, bind, Except.bind]
      | nothing | prose words | tag tag => simp [found, Reading.isFault] at sound
    | false =>
      rw [List.cons_append, ofLines_cons number line _ sound, ofLines_cons number line _ sound,
        inductionHypothesis, counted]
      cases ofLines (number + 1) rest with
      | error error => rfl
      | ok first =>
        cases ofLines (number + 1 + rest.length) back with
        | error error => rfl
        | ok second => exact congrArg Except.ok (append_assoc _ first second).symm

/-- Lines without faults in front only move the numbers of the lines behind them. -/
theorem ofLines_append_error_of_sound_front (number : Nat) (front back : List Line)
    (sound : ∀ line ∈ front, (Reading.ofLine line).isFault = false) (error : ParseError) :
    ofLines number (front ++ back) = .error error ↔
      ofLines (number + front.length) back = .error error := by
  rw [ofLines_append, ofLines_of_sound number front sound]
  cases ofLines (number + front.length) back <;> simp [bind, Except.bind, pure, Except.pure]

/-- Lines without faults behind have no part in an error. -/
theorem ofLines_append_error_of_sound_back (number : Nat) (front back : List Line)
    (sound : ∀ line ∈ back, (Reading.ofLine line).isFault = false) (error : ParseError) :
    ofLines number (front ++ back) = .error error ↔ ofLines number front = .error error := by
  rw [ofLines_append, ofLines_of_sound (number + front.length) back sound]
  cases ofLines number front <;> simp [bind, Except.bind, pure, Except.pure]

/-- What two groups of lines hold is put together. -/
theorem ofLinesLenient_append (front back : List Line) :
    ofLinesLenient (front ++ back) = ofLinesLenient front ++ ofLinesLenient back := by
  induction front with
  | nil => exact (empty_append _).symm
  | cons line rest inductionHypothesis =>
    rw [List.cons_append, ofLinesLenient, inductionHypothesis, ofLinesLenient, append_assoc]

/-- A single line holds what is read from it. -/
theorem ofLinesLenient_singleton (line : Line) :
    ofLinesLenient [line] = (Reading.ofLine line).comment := by
  rw [ofLinesLenient, ofLinesLenient, append_empty]

/-- The comment with what is read from one more line: prose behind its description, or the
tag inserted. -/
def take (comment : Comment) : Reading → Comment
  | .nothing => comment
  | .prose words => { comment with description := comment.description ++ [words.line] }
  | .tag found => comment.insert found
  | .fault _ => comment

/-- The comment with what the numbered line holds, or the fault of the line. -/
def takeLine (comment : Comment) (numbered : Line × Nat) : Except ParseError Comment :=
  match Reading.ofLine numbered.1 with
  | .fault fault => .error ⟨numbered.2, fault⟩
  | reading => .ok (comment.take reading)

/-- What is taken from a line is put behind what there is. -/
theorem take_eq_append (comment : Comment) (reading : Reading) :
    comment.take reading = comment ++ reading.comment := by
  cases reading with
  | nothing | fault fault => exact (append_empty comment).symm
  | prose words => simp [take, Reading.comment, append_eq, append]
  | tag found => exact insert_eq comment found

/-- The lines are taken one after the other, those with a fault for nothing. -/
theorem foldl_take (comment : Comment) (lines : List Line) :
    lines.foldl (fun comment line => comment.take (Reading.ofLine line)) comment =
      comment ++ ofLinesLenient lines := by
  induction lines generalizing comment with
  | nil => exact (append_empty comment).symm
  | cons line rest inductionHypothesis =>
    rw [List.foldl_cons, inductionHypothesis, take_eq_append, append_assoc, ofLinesLenient]

/-- The same up to the first line with a fault. -/
theorem foldlM_takeLine (comment : Comment) (number : Nat) (lines : List Line) :
    (lines.zipIdx number).foldlM takeLine comment =
      (ofLines number lines).map (comment ++ ·) := by
  induction lines generalizing comment number with
  | nil => exact congrArg Except.ok (append_empty comment).symm
  | cons line rest inductionHypothesis =>
    rw [List.zipIdx_cons, List.foldlM_cons]
    cases found : Reading.ofLine line with
    | fault fault => simp [takeLine, ofLines, found, bind, Except.bind, Except.map]
    | nothing | prose words | tag tag =>
      have sound : (Reading.ofLine line).isFault = false := by rw [found]; rfl
      have taken : takeLine comment (line, number) =
          .ok (comment ++ (Reading.ofLine line).comment) := by
        rw [← take_eq_append]
        simp [takeLine, found]
      rw [taken, ofLines_cons number line rest sound]
      change (rest.zipIdx (number + 1)).foldlM takeLine _ = _
      rw [inductionHypothesis]
      cases ofLines (number + 1) rest with
      | error error => rfl
      | ok more => exact congrArg Except.ok (append_assoc _ _ more)

/-- Parsing takes the lines one after the other, starting with the empty comment. Strict
parsing counts them from one and ends at the first fault; lenient parsing passes over it. -/
theorem parse_line_by_line (text : Text) :
    parse text = (text.lines.zipIdx 1).foldlM takeLine empty ∧
      parseLenient text =
        text.lines.foldl (fun comment line => comment.take (Reading.ofLine line)) empty := by
  rw [foldlM_takeLine, foldl_take]
  refine ⟨?_, (empty_append _).symm⟩
  rw [parse]
  cases ofLines 1 text.lines with
  | error error => rfl
  | ok comment => exact congrArg Except.ok (empty_append comment).symm

/-- The lines of tags hold these tags. -/
theorem ofLinesLenient_tags (tags : List Tag) :
    ofLinesLenient (tags.map Tag.line) = empty.insertAll tags := by
  induction tags with
  | nil => rfl
  | cons tag rest inductionHypothesis =>
    rw [List.map_cons, ofLinesLenient, inductionHypothesis, Reading.ofLine_tag_line,
      Reading.comment, insertAll_cons, insertAll_eq (empty.insert tag)]

/-- The lines of tags have no faults. -/
theorem isFault_tags (tags : List Tag) :
    ∀ line ∈ tags.map Tag.line, (Reading.ofLine line).isFault = false := by
  intro line member
  obtain ⟨tag, _, rfl⟩ := List.mem_map.mp member
  rw [Reading.ofLine_tag_line]
  rfl

end Comment

end CommentBlock
