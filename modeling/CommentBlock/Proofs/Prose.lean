import CommentBlock.Proofs.Block

/-!
# Prose

Behind a star a phrase is prose if its first word does not begin with an at sign,
and only prose describes. A description that is written and read back therefore
loses the phrases that are no prose and keeps the others in order. A description
that comes from parsing is prose throughout, each line in the form of a phrase.
-/

namespace CommentBlock

/-- Whether the phrase is read as prose behind a star: it has a first word, and
that one does not begin with an at sign. -/
def Phrase.isProse (phrase : Phrase) : Bool := !phrase.isEmpty && !phrase.beginsWithAt

/-- The first word decides about the others. -/
theorem Phrase.isProse_cons (word : Word) (rest : List Word) :
    isProse (word :: rest) = !word.beginsWithAt := rfl

/-- Whether the description is prose, each line in the form of a phrase. -/
def Comment.IsProse (comment : Comment) : Prop :=
  ∃ phrases : List Phrase, (∀ phrase ∈ phrases, phrase.isProse = true) ∧
    comment.description = phrases.map Phrase.line

namespace Reading

/-- Nothing is described by the words behind the sign of a known kind. -/
theorem description_ofFields (kind : Kind) (fields : List Word) :
    (ofFields kind fields).comment.description = [] := by
  by_cases accepts : kind.Accepts fields
  · obtain ⟨tag, _, read⟩ := ofFields_of_accepts kind fields accepts
    rw [read, comment, Comment.description_insert]
    rfl
  · obtain ⟨fault, read⟩ := ofFields_of_refused kind fields accepts
    rw [read]
    rfl

/-- Behind a star, prose describes itself and all else describes nothing. -/
theorem description_ofStarred (phrase : Phrase) :
    (ofStarred phrase).comment.description = if phrase.isProse then [phrase.line] else [] := by
  cases phrase with
  | nil => rfl
  | cons word rest =>
    cases sign : word.beginsWithAt with
    | false =>
      have prose : Phrase.isProse (word :: rest) = true := by
        rw [Phrase.isProse_cons, sign, Bool.not_false]
      rw [ofStarred_prose word rest sign, if_pos prose]
      rfl
    | true =>
      have noProse : Phrase.isProse (word :: rest) = false := by
        rw [Phrase.isProse_cons, sign, Bool.not_true]
      rw [noProse]
      cases known : word.kind? with
      | none =>
        rw [ofStarred_unknown word rest sign known]
        rfl
      | some kind => rw [ofStarred_known word rest kind known, description_ofFields]; rfl

/-- Prose is read as it stands behind a star. -/
theorem ofStarred_isProse (phrase : Phrase) (prose : phrase.isProse = true) :
    ofStarred phrase = .prose phrase := by
  cases phrase with
  | nil => simp [Phrase.isProse] at prose
  | cons word rest =>
    exact ofStarred_prose word rest (by simpa [Phrase.isProse_cons] using prose)

/-- What a line holds is described by prose. -/
theorem isProse_ofLine (line : Line) : (ofLine line).comment.IsProse := by
  rw [ofLine]
  cases Text.words line.chars with
  | nil => exact ⟨[], by simp, rfl⟩
  | cons word rest =>
    by_cases star : word = .star
    · rw [star, ofWords_star, Comment.IsProse, description_ofStarred]
      by_cases prose : Phrase.isProse rest = true
      · exact ⟨[rest], by simpa using prose, by simp [prose]⟩
      · exact ⟨[], by simp, by simp [prose]⟩
    · exact ⟨[], by simp, by simp [ofWords, star, comment, Comment.empty]⟩

end Reading

namespace Comment

/-- Phrases behind stars describe the prose among them. -/
theorem description_ofPhrases (phrases : List Phrase) :
    (ofPhrases phrases).description = (phrases.filter Phrase.isProse).map Phrase.line := by
  induction phrases with
  | nil => rfl
  | cons phrase rest inductionHypothesis =>
    have joined : (ofPhrases (phrase :: rest)).description =
        (Reading.ofStarred phrase).comment.description ++ (ofPhrases rest).description := rfl
    rw [joined, inductionHypothesis, Reading.description_ofStarred, List.filter_cons]
    split <;> rfl

/-- Prose behind stars holds its description and no tags. -/
theorem ofPhrases_prose (phrases : List Phrase)
    (prose : ∀ phrase ∈ phrases, phrase.isProse = true) :
    ofPhrases phrases = { description := phrases.map Phrase.line } := by
  induction phrases with
  | nil => rfl
  | cons phrase rest inductionHypothesis =>
    obtain ⟨first, others⟩ := List.forall_mem_cons.mp prose
    rw [ofPhrases, Reading.ofStarred_isProse phrase first, inductionHypothesis others]
    rfl

/-- Prose behind stars has no faults. -/
theorem isFault_prose (phrase : Phrase) (prose : phrase.isProse = true) :
    (Reading.ofStarred phrase).isFault = false := by
  rw [Reading.ofStarred_isProse phrase prose]
  rfl

/-- A comment without description is described by prose. -/
theorem isProse_empty : empty.IsProse := ⟨[], by simp, rfl⟩

/-- Prose behind prose is prose. -/
theorem isProse_append (first second : Comment) (firstProse : first.IsProse)
    (secondProse : second.IsProse) : (first ++ second).IsProse := by
  obtain ⟨front, frontProse, frontSame⟩ := firstProse
  obtain ⟨back, backProse, backSame⟩ := secondProse
  refine ⟨front ++ back, List.forall_mem_append.mpr ⟨frontProse, backProse⟩, ?_⟩
  rw [List.map_append, ← frontSame, ← backSame]
  rfl

/-- What lines hold is described by prose. -/
theorem isProse_ofLinesLenient (lines : List Line) : (ofLinesLenient lines).IsProse := by
  induction lines with
  | nil => exact isProse_empty
  | cons line rest inductionHypothesis =>
    exact isProse_append _ _ (Reading.isProse_ofLine line) inductionHypothesis

/-- Parsing describes by prose alone, in either mode. -/
theorem isProse_of_parseAs (mode : Mode) (text : Text) (comment : Comment)
    (parsed : parseAs mode text = .ok comment) : comment.IsProse := by
  rw [← parseLenient_of_parseAs mode text comment parsed]
  exact isProse_ofLinesLenient text.lines

end Comment

/-- Prose in the form of phrases has these phrases. -/
theorem Line.phrases_prose (phrases : List Phrase)
    (prose : ∀ phrase ∈ phrases, phrase.isProse = true) :
    Line.phrases (phrases.map Phrase.line) = phrases := by
  have words : (phrases.map Phrase.line).map (fun line => Text.words line.chars) = phrases := by
    simp [Function.comp_def, Phrase.words_line]
  rw [Line.phrases, words, List.filter_eq_self]
  intro phrase member
  exact (Bool.and_eq_true_iff.mp (prose phrase member)).1

/-- All phrases are prose exactly when no line begins with an at sign. -/
theorem Line.forall_isProse_iff (lines : List Line) :
    (∀ phrase ∈ Line.phrases lines, phrase.isProse = true) ↔
      ∀ line ∈ lines, Phrase.beginsWithAt (Text.words line.chars) = false := by
  rw [← Line.forall_mem_phrases (fun phrase => phrase.beginsWithAt = false) rfl lines]
  apply forall₂_congr
  intro phrase member
  have nonempty : phrase.isEmpty = false := by simpa using (List.mem_filter.mp member).2
  simp [Phrase.isProse, nonempty]

end CommentBlock
