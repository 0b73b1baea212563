import CommentBlock.Proofs.Errors
import CommentBlock.Proofs.Prose

/-!
# The content of a text slot by slot

Parsing puts together what the lines of a text hold, one after the other. Here each
slot of the result is described on its own, by the lines that fill it. Only a line
counts that has a lone star in front of another word. The description has the words
behind the star where these are prose. Parameters and thrown exceptions come from all
lines with their sign and the fields that they need, in order, and a single tag comes
from the last such line of its kind. Every other line leaves no trace.

Fields are taken as they stand: a type and a level are one word each, a name is a
word less one dollar sign, and free text has the remaining words.
-/

namespace CommentBlock

/-- The words behind the sign of the kind, if the phrase begins with that sign. -/
def Phrase.fields? (kind : Kind) : Phrase → Option Phrase
  | sign :: fields => if sign.kind? = some kind then some fields else none
  | [] => none

/-- The words behind the star of a line that has a lone star in front of another word. -/
def Line.behindStar? (line : Line) : Option Phrase :=
  match Text.words line.chars with
  | first :: second :: rest => if first = .star then some (second :: rest) else none
  | _ => none

/-- The words behind the stars of the lines that count, line by line. -/
def Text.starred (text : Text) : List Phrase := text.lines.filterMap Line.behindStar?

/-- The words behind the signs of the kind among these. -/
def Text.fieldsOf (text : Text) (kind : Kind) : List Phrase :=
  text.starred.filterMap (Phrase.fields? kind)

/-- What stands behind a star has a first word. -/
theorem Line.words_of_behindStar? (line : Line) (phrase : Phrase)
    (found : line.behindStar? = some phrase) :
    ∃ word rest, phrase = word :: rest ∧ Text.words line.chars = .star :: word :: rest := by
  unfold behindStar? at found
  split at found
  · rename_i first second rest words
    split at found
    · rename_i star
      exact ⟨second, rest, (Option.some.inj found).symm, star ▸ words⟩
    · cases found
  · cases found

/-- Whether the line is neither prose nor a tag without a fault. -/
def Line.IsSilent (line : Line) : Prop :=
  (∀ phrase, line.behindStar? = some phrase → phrase.isProse = false) ∧
    ∀ kind, line.HasSign kind → line.IsFaulty

namespace Comment

/-- The comment that the phrases state behind stars, slot by slot. -/
def stated (phrases : List Phrase) : Comment where
  description := (phrases.filter Phrase.isProse).map Phrase.line
  var := ((phrases.filterMap (Phrase.fields? .var)).filterMap Variable.ofWords?).getLast?
  returns := ((phrases.filterMap (Phrase.fields? .returns)).filterMap Outcome.ofWords?).getLast?
  package := (phrases.filterMap (Phrase.fields? .package)).getLast?
  author := (phrases.filterMap (Phrase.fields? .author)).getLast?
  license := (phrases.filterMap (Phrase.fields? .license)).getLast?
  access := ((phrases.filterMap (Phrase.fields? .access)).filterMap List.head?).getLast?
  params := (phrases.filterMap (Phrase.fields? .param)).filterMap Variable.ofWords?
  throws := (phrases.filterMap (Phrase.fields? .throws)).filterMap Outcome.ofWords?

/-- What two groups of phrases state is put together. -/
theorem stated_append (front back : List Phrase) :
    stated (front ++ back) = stated front ++ stated back := by
  simp only [stated, append_eq, append, List.filter_append, List.map_append,
    List.filterMap_append, List.getLast?_append]

/-- The comment that the fields of a tag of the kind make up, if they do. -/
def ofFields (kind : Kind) (fields : List Word) : Comment :=
  match kind with
  | .var => { var := Variable.ofWords? fields }
  | .param => { params := (Variable.ofWords? fields).toList }
  | .returns => { returns := Outcome.ofWords? fields }
  | .throws => { throws := (Outcome.ofWords? fields).toList }
  | .author => { author := some fields }
  | .license => { license := some fields }
  | .package => { package := some fields }
  | .access => { access := fields.head? }

/-- Behind the sign of a kind, only the slot of that kind is filled. -/
theorem stated_of_kind (kind : Kind) (sign : Word) (fields : List Word)
    (known : sign.kind? = some kind) : stated [sign :: fields] = ofFields kind fields := by
  have noProse : Phrase.isProse (sign :: fields) = false := by
    rw [Phrase.isProse_cons, Reading.beginsWithAt_of_kind? sign kind known, Bool.not_true]
  have taken : ∀ other, Phrase.fields? other (sign :: fields) =
      if kind = other then some fields else none := by
    intro other
    simp [Phrase.fields?, known]
  -- A sign names one kind, so by `taken` the other slots are given nothing.
  cases kind with
  | var | param =>
    cases made : Variable.ofWords? fields <;> simp [stated, noProse, taken, made, ofFields]
  | returns | throws =>
    cases made : Outcome.ofWords? fields <;> simp [stated, noProse, taken, made, ofFields]
  | access => cases made : fields.head? <;> simp [stated, noProse, taken, made, ofFields]
  | author | license | package => simp [stated, noProse, taken, ofFields]

/-- Without the sign of a kind, only prose fills a slot. -/
theorem stated_of_unknown (word : Word) (rest : List Word) (unknown : word.kind? = none) :
    stated [word :: rest] =
      { description := ([word :: rest].filter Phrase.isProse).map Phrase.line } := by
  have taken : ∀ kind, Phrase.fields? kind (word :: rest) = none := by
    intro kind
    simp [Phrase.fields?, unknown]
  simp [stated, taken]

end Comment

namespace Reading

/-- Fields that do not make up a tag leave nothing, and others a tag with just these
fields. -/
theorem comment_ofFields (kind : Kind) (fields : List Word) :
    (ofFields kind fields).comment = Comment.ofFields kind fields := by
  cases kind with
  | var | param =>
    rcases fields with _ | ⟨type, _ | ⟨name, description⟩⟩
    · rfl
    · rfl
    · simp only [ofFields, Draft.ofWords?, Draft.build, Variable.ofFields_words, Comment.ofFields]
      cases Variable.ofWords? (type :: name :: description) <;> rfl
  | returns | throws =>
    rcases fields with _ | ⟨type, description⟩
    · rfl
    · simp only [ofFields, Draft.ofWords?, Draft.build, Outcome.ofFields_words]
      rfl
  | author | license | package =>
    simp only [ofFields, Draft.ofWords?, Draft.build, Phrase.words_text]
    rfl
  | access =>
    rcases fields with _ | ⟨level, rest⟩
    · rfl
    · simp only [ofFields, Draft.ofWords?, Draft.build, Field.read_chars]
      rfl

/-- A phrase behind a star is read as what it states slot by slot. -/
theorem comment_ofStarred (phrase : Phrase) :
    (ofStarred phrase).comment = Comment.stated [phrase] := by
  cases phrase with
  | nil => rfl
  | cons word rest =>
    cases known : word.kind? with
    | some kind =>
      rw [ofStarred_known word rest kind known, comment_ofFields,
        Comment.stated_of_kind kind word rest known]
    | none =>
      rw [Comment.stated_of_unknown word rest known]
      cases begins : word.beginsWithAt with
      | true =>
        have noProse : ¬ Phrase.isProse (word :: rest) = true := by
          simp [Phrase.isProse_cons, begins]
        rw [ofStarred_unknown word rest begins known, List.filter_cons_of_neg noProse]
        rfl
      | false =>
        have prose : Phrase.isProse (word :: rest) = true := by
          rw [Phrase.isProse_cons, begins, Bool.not_false]
        rw [ofStarred_prose word rest begins, List.filter_cons_of_pos prose]
        rfl

/-- A line holds what stands behind its star, if it counts, and else nothing. -/
theorem comment_ofLine (line : Line) :
    (ofLine line).comment = Comment.stated line.behindStar?.toList := by
  rw [ofLine, Line.behindStar?]
  rcases Text.words line.chars with _ | ⟨first, _ | ⟨second, rest⟩⟩
  · rfl
  · have alone : ofWords [first] = .nothing := by
      by_cases star : first = .star <;> simp [ofWords, star, ofStarred]
    rw [alone]
    rfl
  · by_cases star : first = .star
    · simp only [star, ofWords_star, if_true, Option.toList_some, comment_ofStarred]
    · simp only [ofWords, star, if_false, Option.toList_none]
      rfl

/-- A silent line holds nothing. -/
theorem comment_of_isSilent (line : Line) (silent : line.IsSilent) :
    (ofLine line).comment = .empty := by
  obtain ⟨noProse, faulty⟩ := silent
  rw [comment_ofLine]
  cases found : line.behindStar? with
  | none => rfl
  | some phrase =>
    obtain ⟨word, rest, rfl, words⟩ := line.words_of_behindStar? phrase found
    cases known : word.kind? with
    | some kind =>
      obtain ⟨fault, read⟩ := faulty kind ((line.hasSign_iff kind).mpr ⟨word, rest, words, known⟩)
      rw [← found, ← comment_ofLine, (ofLine_eq_fault_iff line fault).mpr read]
      rfl
    | none =>
      have dropped : ¬ Phrase.isProse (word :: rest) = true := by
        simp [noProse (word :: rest) found]
      rw [Option.toList_some, Comment.stated_of_unknown word rest known,
        List.filter_cons_of_neg dropped]
      rfl

end Reading

namespace Comment

/-- The lines of a text state, slot by slot, what stands behind their stars. -/
theorem ofLinesLenient_eq_stated (lines : List Line) :
    ofLinesLenient lines = stated (lines.filterMap Line.behindStar?) := by
  induction lines with
  | nil => rfl
  | cons line rest inductionHypothesis =>
    have split : (line :: rest).filterMap Line.behindStar? =
        line.behindStar?.toList ++ rest.filterMap Line.behindStar? := by
      cases found : line.behindStar? <;> simp [found]
    rw [ofLinesLenient, Reading.comment_ofLine, inductionHypothesis, split, stated_append]

/-- The comment that lenient parsing gives is described slot by slot by the words
behind the stars of the text, and a line that is neither prose nor a tag without a
fault can be left out. -/
theorem parseLenient_slot_by_slot (text : Text) :
    parseLenient text =
        { description := (text.starred.filter Phrase.isProse).map Phrase.line
          var := ((text.fieldsOf .var).filterMap Variable.ofWords?).getLast?
          returns := ((text.fieldsOf .returns).filterMap Outcome.ofWords?).getLast?
          package := (text.fieldsOf .package).getLast?
          author := (text.fieldsOf .author).getLast?
          license := (text.fieldsOf .license).getLast?
          access := ((text.fieldsOf .access).filterMap List.head?).getLast?
          params := (text.fieldsOf .param).filterMap Variable.ofWords?
          throws := (text.fieldsOf .throws).filterMap Outcome.ofWords? } ∧
      ∀ before line after, text.lines = before ++ line :: after → line.IsSilent →
        parseLenient (Text.ofEndedLines (before ++ after)) = parseLenient text := by
  constructor
  · exact ofLinesLenient_eq_stated text.lines
  · intro before line after split silent
    rw [parseLenient, parseLenient, Text.lines_ofEndedLines, split, ofLinesLenient_append,
      ofLinesLenient_append, ofLinesLenient, Reading.comment_of_isSilent line silent,
      empty_append]

end Comment

end CommentBlock
