import CommentBlock.Proofs.Joining
import CommentBlock.Proofs.LineEnds

/-!
# Layouts of lines of words

The same words can be laid out in many ways: with any blanks in front of a line, between
its words and behind it, and with any end after each line. Of all this parsing sees only
the words of each line. So two texts in which the same lines of words are laid out give
the same comment, or the same fault on the line with the same number.

The blanks between words and at the ends of lines are those that end no line. Some of
them look like line ends or page ends, but they part words and nothing else.

Which texts lay out given lines is described by relations that know nothing of how a
text is read. They leave no text out: each is a layout of the words of its own lines.
-/

namespace CommentBlock

/-- The texts in which the words of a phrase stand one after the other with any blanks in
front, between and behind. Words are apart: a word is followed by a blank or by nothing. -/
inductive Phrase.LaidOut : Phrase → Text → Prop where
  | blank (gap : Text) (blank : ∀ c ∈ gap, isBlank c = true) : LaidOut [] gap
  | word (gap : Text) (first : Word) (rest : Phrase) (behind : Text)
      (blank : ∀ c ∈ gap, isBlank c = true) (apart : ∀ c ∈ behind.head?, isBlank c = true)
      (laid : LaidOut rest behind) : LaidOut (first :: rest) (gap ++ first.chars ++ behind)

/-- The texts in which each phrase is laid out on a line of its own. As a line holds neither CR
nor LF, no gap in it does. Each line has an end of any kind, except that the last one may be
left open, and no two ends are read as one. -/
inductive Text.LaysOut (phrases : List Phrase) : Text → Prop where
  | intro (ended : List EndedLine) (last : Option Line) (apart : EndedLine.AreApart ended)
      (laid : List.Forall₂ Phrase.LaidOut phrases
        ((ended.map EndedLine.line ++ last.toList).map Line.chars)) :
      LaysOut phrases (ended.flatMap EndedLine.text ++ last.toList.flatMap Line.chars)

namespace Text

/-- Blanks in front of a text add no words. -/
theorem words_blank_append (front back : Text) (blank : ∀ c ∈ front, isBlank c = true) :
    words (front ++ back) = words back := by
  induction front with
  | nil => rfl
  | cons c rest inductionHypothesis =>
    obtain ⟨first, others⟩ := List.forall_mem_cons.mp blank
    rw [List.cons_append, words_cons_blank c _ first, inductionHypothesis others]

/-- A text that begins with a blank, or not at all, adds its own words. -/
theorem words_append_apart (front back : Text) (apart : ∀ c ∈ back.head?, isBlank c = true) :
    words (front ++ back) = words front ++ words back := by
  cases back with
  | nil => simp [words]
  | cons c rest =>
    have blank : isBlank c = true := apart c rfl
    rw [words_append_blank front rest c blank, words_cons_blank c rest blank]

end Text

namespace Phrase

/-- A blank in front of a layout makes a layout. -/
theorem LaidOut.cons {phrase : Phrase} {text : Text} (c : Char) (blankFirst : isBlank c = true)
    (laid : LaidOut phrase text) : LaidOut phrase (c :: text) := by
  cases laid with
  | blank _ blank => exact .blank _ (List.forall_mem_cons.mpr ⟨blankFirst, blank⟩)
  | word gap first rest behind blank apart laid =>
    exact .word (c :: gap) first rest behind (List.forall_mem_cons.mpr ⟨blankFirst, blank⟩) apart
      laid

/-- Of a layout, the words are read back. -/
theorem words_of_laidOut (phrase : Phrase) (text : Text) (laid : LaidOut phrase text) :
    Text.words text = phrase := by
  induction laid with
  | blank gap blank => exact (Text.words_eq_nil_iff gap).mpr blank
  | word gap first rest behind blank apart laid inductionHypothesis =>
    rw [List.append_assoc, Text.words_blank_append gap _ blank,
      Text.words_append_apart _ behind apart, Text.words_chars, inductionHypothesis]
    rfl

/-- Every text is a layout of its words.

Proof: by induction on the text. A character that is not blank joins the word behind it
if there is no gap in front of that word, and is a word of its own otherwise. -/
theorem laidOut_words (text : Text) : LaidOut (Text.words text) text := by
  induction text with
  | nil => exact .blank [] (by simp)
  | cons c rest inductionHypothesis =>
    cases blank : isBlank c with
    | true =>
      rw [Text.words_cons_blank c rest blank]
      exact inductionHypothesis.cons c blank
    | false =>
      rw [Text.words_cons_solid c rest blank]
      cases starts : Text.startsSolid rest with
      | false =>
        have apart : ∀ d ∈ rest.head?, isBlank d = true := by
          cases rest with
          | nil => simp
          | cons d more => simpa [Text.startsSolid] using starts
        exact .word [] (.single c blank) _ rest (by simp) apart inductionHypothesis
      | true =>
        obtain ⟨word, more, same⟩ := List.exists_cons_of_ne_nil (Text.words_ne_nil rest starts)
        rw [same] at inductionHypothesis ⊢
        cases inductionHypothesis with
        | word gap _ _ behind gapBlank apart laid =>
          cases gap with
          | nil => exact .word [] (word.cons c blank) more behind (by simp) apart laid
          | cons d others =>
            have blankFirst : isBlank d = true := gapBlank d List.mem_cons_self
            simp [Text.startsSolid, blankFirst] at starts

/-- The layouts of a phrase are the texts that have its words. -/
theorem laidOut_iff (phrase : Phrase) (text : Text) :
    LaidOut phrase text ↔ Text.words text = phrase := by
  constructor
  · exact words_of_laidOut phrase text
  · rintro rfl
    exact laidOut_words text

end Phrase

/-- The words of each line. -/
def Line.wordLists (lines : List Line) : List Phrase := lines.map fun line => Text.words line.chars

namespace Text

/-- Phrases are laid out one by one on lines exactly if they are the words of the lines. -/
theorem forall₂_laidOut_iff (phrases : List Phrase) (lines : List Line) :
    List.Forall₂ Phrase.LaidOut phrases (lines.map Line.chars) ↔
      Line.wordLists lines = phrases := by
  have sameRelation : Phrase.LaidOut = fun phrase text => phrase = words text := by
    funext phrase text
    rw [Phrase.laidOut_iff, @eq_comm _ phrase]
  rw [sameRelation, ← List.forall₂_map_right_iff, List.forall₂_eq_eq_eq, List.map_map, eq_comm]
  exact Iff.rfl

/-- Every text lays out the words of its lines. -/
theorem laysOut_wordLists (text : Text) : LaysOut (Line.wordLists text.lines) text := by
  obtain ⟨ended, last, apart, filled, rfl⟩ := exists_endedLines text
  have allFilled : last.toList.filter (fun line => !line.chars.isEmpty) = last.toList := by
    cases last <;> simp_all
  apply LaysOut.intro ended last apart
  rw [forall₂_laidOut_iff, lines_endedLines ended last apart, allFilled]

/-- In a layout of lines of words the lines of the text have these words. Only an empty
line that is the last of them and is left open is not there. -/
theorem exists_gap_of_laysOut (phrases : List Phrase) (text : Text) (laid : LaysOut phrases text) :
    ∃ gap : List Line, (gap = [] ∨ gap = [.empty]) ∧
      Line.wordLists (text.lines ++ gap) = phrases := by
  obtain ⟨ended, last, apart, laid⟩ := laid
  rw [forall₂_laidOut_iff] at laid
  rw [lines_endedLines ended last apart]
  by_cases missing : last = some .empty
  · refine ⟨[.empty], .inr rfl, ?_⟩
    rw [← laid, missing]
    simp [Line.empty]
  · refine ⟨[], .inl rfl, ?_⟩
    have allFilled : last.toList.filter (fun line => !line.chars.isEmpty) = last.toList := by
      cases last with
      | none => rfl
      | some line =>
        have filled : line.chars ≠ [] := by
          intro noChars
          exact missing (congrArg some (line.eq_of_chars_eq .empty noChars))
        simp [filled]
    rw [allFilled, List.append_nil, laid]

end Text

namespace Comment

/-- Lines with the same words are parsed alike. -/
theorem ofLines_congr (number : Nat) (first second : List Line)
    (same : Line.wordLists first = Line.wordLists second) :
    ofLines number first = ofLines number second ∧
      ofLinesLenient first = ofLinesLenient second := by
  induction first generalizing number second with
  | nil =>
    obtain rfl : second = [] := List.map_eq_nil_iff.mp same.symm
    exact ⟨rfl, rfl⟩
  | cons line rest inductionHypothesis =>
    cases second with
    | nil => simp [Line.wordLists] at same
    | cons other more =>
      obtain ⟨sameWords, sameRest⟩ := List.cons.inj same
      have sameReading : Reading.ofLine line = Reading.ofLine other :=
        congrArg Reading.ofWords sameWords
      obtain ⟨strict, lenient⟩ := inductionHypothesis (number + 1) more sameRest
      rw [ofLines, ofLines, ofLinesLenient, ofLinesLenient, sameReading, strict, lenient]
      exact ⟨rfl, rfl⟩

/-- A layout of lines of words is parsed as the lines that have these words with single
spaces between them. -/
theorem parse_of_laysOut (phrases : List Phrase) (text : Text) (laid : Text.LaysOut phrases text) :
    parse text = ofLines 1 (phrases.map Phrase.line) ∧
      parseLenient text = ofLinesLenient (phrases.map Phrase.line) := by
  obtain ⟨gap, shape, sameWords⟩ := Text.exists_gap_of_laysOut phrases text laid
  have written : Line.wordLists (phrases.map Phrase.line) = phrases := by
    simp [Line.wordLists, Function.comp_def, Phrase.words_line]
  obtain ⟨strict, lenient⟩ := ofLines_congr 1 _ _ (sameWords.trans written.symm)
  have nothing : ofLinesLenient gap = empty := by
    rcases shape with rfl | rfl <;> rfl
  rw [ofLines_append_gap 1 text.lines gap shape] at strict
  rw [ofLinesLenient_append, nothing, append_empty] at lenient
  exact ⟨strict, lenient⟩

/-- Two layouts of the same lines of words are parsed alike: strict parsing gives the same
comment, or the same fault on the line with the same number, and lenient parsing gives the
same comment. As every text is a layout of the words of its lines, nothing else in a text
counts. -/
theorem parse_layouts :
    (∀ phrases first second, Text.LaysOut phrases first → Text.LaysOut phrases second →
      parse first = parse second ∧ parseLenient first = parseLenient second) ∧
      ∀ text : Text, Text.LaysOut (Line.wordLists text.lines) text := by
  refine ⟨?_, Text.laysOut_wordLists⟩
  intro phrases first second firstLaid secondLaid
  obtain ⟨strict, lenient⟩ := parse_of_laysOut phrases first firstLaid
  rw [strict, lenient]
  obtain ⟨strictAgain, lenientAgain⟩ := parse_of_laysOut phrases second secondLaid
  exact ⟨strictAgain.symm, lenientAgain.symm⟩

/-- A line separator, a page end and a line tabulation part words, a tab makes a line of
its own between CR and LF, and the fault stands on the third line either way. -/
theorem parse_layouts_of_odd_blanks :
    let odd : Text := " *\u2028Sizes\r\t\n\x0C*\x0B@param\u3000int".toList
    let plain : Text := "* Sizes\r\n\r* @param int\n".toList
    let phrases := Line.wordLists plain.lines
    Text.LaysOut phrases odd ∧ Text.LaysOut phrases plain ∧ parse odd = parse plain ∧
      parse plain = .error ⟨3, .tooFewWords .param 4 3⟩ := by
  intro odd plain phrases
  have sameWords : Line.wordLists (Text.lines odd) = phrases := by decide +kernel
  have oddLaid : Text.LaysOut phrases odd := sameWords ▸ Text.laysOut_wordLists odd
  have plainLaid : Text.LaysOut phrases plain := Text.laysOut_wordLists plain
  exact ⟨oddLaid, plainLaid, (parse_layouts.1 phrases odd plain oddLaid plainLaid).1, rfl⟩

end Comment

end CommentBlock
