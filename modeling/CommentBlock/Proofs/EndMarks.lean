import Mathlib.Algebra.GroupWithZero.Nat
import CommentBlock.Proofs.Block
import CommentBlock.Proofs.Drafts
import CommentBlock.Proofs.Shape

/-!
# End marks in a block

A reader of code takes a comment to end at the first star that a slash follows. A
block has such an end mark in its last line, and it may have more of them inside the
texts that were stored. Here they are counted, and the count is that of the stored
texts and one more: nowhere does writing bring a star in front of a slash.

The reason is that an end mark holds no blank. It lies within a single word, so the
marks of a text are those of its words, whatever stands between these. Writing keeps
the words of descriptions and fields and adds only stars, signs and dollar signs.
-/

namespace CommentBlock

namespace Text

/-- What stands behind each end mark of the text, from the first mark to the last. -/
def behindEndMarks : Text → List Text
  | '*' :: '/' :: rest => rest :: behindEndMarks rest
  | _ :: rest => behindEndMarks rest
  | [] => []

/-- How many end marks the text has. -/
def endMarks (text : Text) : Nat := text.behindEndMarks.length

/-- A character begins an end mark if it is a star and a slash comes next. -/
theorem behindEndMarks_cons (c : Char) (rest : Text) :
    behindEndMarks (c :: rest) =
      (if c = '*' ∧ rest.head? = some '/' then [rest.tail] else []) ++ behindEndMarks rest := by
  by_cases begins : c = '*' ∧ rest.head? = some '/'
  · obtain ⟨rfl, slash⟩ := begins
    obtain ⟨more, rfl⟩ := List.head?_eq_some_iff.mp slash
    simp [behindEndMarks]
  · have noMark : ∀ more, c = '*' → rest = '/' :: more → False := by
      rintro more rfl rfl
      exact begins ⟨rfl, rfl⟩
    rw [behindEndMarks.eq_2 c rest noMark, if_neg begins, List.nil_append]

/-- The same for the number of end marks. -/
theorem endMarks_cons (c : Char) (rest : Text) :
    endMarks (c :: rest) = (if c = '*' ∧ rest.head? = some '/' then 1 else 0) + endMarks rest := by
  rw [endMarks, behindEndMarks_cons, List.length_append]
  split <;> rfl

/-- No end mark reaches across a blank. -/
theorem behindEndMarks_append_blank (front back : Text) (c : Char) (blank : isBlank c = true) :
    behindEndMarks (front ++ c :: back) =
      (behindEndMarks front).map (· ++ c :: back) ++ behindEndMarks back := by
  have noSlash : c ≠ '/' := by
    rintro rfl
    exact absurd blank (by decide)
  have noStar : c ≠ '*' := by
    rintro rfl
    exact absurd blank (by decide)
  induction front with
  | nil => simp [behindEndMarks_cons, noStar, behindEndMarks]
  | cons d rest inductionHypothesis =>
    rw [List.cons_append, behindEndMarks_cons, behindEndMarks_cons, inductionHypothesis]
    cases rest with
    | nil => simp [noSlash]
    | cons e more => split <;> simp_all

/-- The end marks of two texts with a blank between them are those of each. -/
theorem endMarks_append_blank (front back : Text) (c : Char) (blank : isBlank c = true) :
    endMarks (front ++ c :: back) = endMarks front + endMarks back := by
  rw [endMarks, behindEndMarks_append_blank front back c blank, List.length_append, List.length_map]
  rfl

/-- A text has no end mark exactly when it does not contain a star in front of a
slash. -/
theorem endMarks_eq_zero_iff (text : Text) : endMarks text = 0 ↔ ¬ ['*', '/'] <:+: text := by
  induction text with
  | nil => simp [endMarks, behindEndMarks]
  | cons c rest inductionHypothesis =>
    have begins : ['*', '/'] <+: c :: rest ↔ c = '*' ∧ rest.head? = some '/' := by
      cases rest <;> simp [List.cons_prefix_cons, eq_comm]
    rw [endMarks_cons, List.infix_cons_iff, not_or, ← inductionHypothesis, begins]
    split <;> simp_all

/-- A text that begins with a word begins as this word does. -/
theorem head?_first_word (text : Text) (starts : startsSolid text = true) (word : Word)
    (others : List Word) (found : words text = word :: others) :
    word.chars.head? = text.head? := by
  cases text with
  | nil => simp [startsSolid] at starts
  | cons c rest =>
    have solid : isBlank c = false := by simpa [startsSolid] using starts
    rw [words_cons_solid c rest solid] at found
    cases joins : startsSolid rest with
    | false =>
      obtain ⟨rfl, _⟩ := List.cons.inj (by simpa [joins, prependToWords] using found)
      rfl
    | true =>
      obtain ⟨next, more, same⟩ := List.exists_cons_of_ne_nil (words_ne_nil rest joins)
      obtain ⟨rfl, _⟩ := List.cons.inj (by simpa [joins, same, prependToWords] using found)
      rfl

/-- The end marks of a text are those of its words. -/
theorem endMarks_eq_sum (text : Text) :
    endMarks text = ((words text).map fun word => endMarks word.chars).sum := by
  induction text with
  | nil => rfl
  | cons c rest inductionHypothesis =>
    cases blank : isBlank c with
    | true =>
      have noMark : endMarks (c :: rest) = 0 + endMarks rest :=
        endMarks_append_blank [] rest c blank
      rw [noMark, words_cons_blank c rest blank, inductionHypothesis, Nat.zero_add]
    | false =>
      rw [endMarks_cons, words_cons_solid c rest blank, inductionHypothesis]
      cases joins : startsSolid rest with
      | false =>
        have noSlash : rest.head? ≠ some '/' := by
          intro begins
          obtain ⟨more, rfl⟩ := List.head?_eq_some_iff.mp begins
          exact absurd joins (by simp [startsSolid, isBlank_slash])
        simp [prependToWords, noSlash, Word.single, endMarks, behindEndMarks]
      | true =>
        obtain ⟨word, others, same⟩ := List.exists_cons_of_ne_nil (words_ne_nil rest joins)
        -- The character stands in front of the same character in the text and in the word.
        have sameHead := head?_first_word rest joins word others same
        simp only [same, prependToWords, List.map_cons, List.sum_cons, Word.cons, endMarks_cons,
          sameHead]
        omega

end Text

namespace Line

/-- How many end marks the line has. -/
def endMarks (line : Line) : Nat := Text.endMarks line.chars

/-- Behind its star a line has the end marks that it has on its own. -/
theorem endMarks_starred (line : Line) : line.starred.endMarks = line.endMarks := by
  have noMark : Text.endMarks [' ', '*'] = 0 := rfl
  rw [starred]
  by_cases noChars : line.chars.isEmpty = true
  · rw [if_pos noChars, endMarks, endMarks, List.isEmpty_iff.mp noChars]
    rfl
  · rw [if_neg noChars]
    change Text.endMarks ([' ', '*'] ++ ' ' :: line.chars) = _
    rw [Text.endMarks_append_blank _ _ ' ' rfl, noMark, Nat.zero_add]
    rfl

/-- The end marks of lines are those of the words of their phrases. -/
theorem sum_endMarks (lines : List Line) :
    (lines.map endMarks).sum =
      ((phrases lines).flatten.map fun word => Text.endMarks word.chars).sum := by
  have flattened : (phrases lines).flatten = lines.flatMap fun line => Text.words line.chars := by
    rw [phrases, List.flatten_filter_not_isEmpty, List.flatMap_def]
  rw [flattened]
  clear flattened
  induction lines with
  | nil => rfl
  | cons line rest inductionHypothesis =>
    rw [List.map_cons, List.sum_cons, inductionHypothesis, List.flatMap_cons, List.map_append,
      List.sum_append, ← Text.endMarks_eq_sum]
    rfl

/-- Lines in normal form have the end marks of the description. -/
theorem sum_endMarks_normalLines (description : List Line) :
    ((Comment.normalLines description).map endMarks).sum = (description.map endMarks).sum := by
  rw [sum_endMarks, phrases_normalLines, ← sum_endMarks]

end Line

/-- Lines that are each ended by LF have the end marks of the lines. -/
theorem Text.endMarks_ofEndedLines (lines : List Line) :
    endMarks (ofEndedLines lines) = (lines.map Line.endMarks).sum := by
  induction lines with
  | nil => rfl
  | cons line rest inductionHypothesis =>
    rw [ofEndedLines_cons, endMarks_append_blank _ _ '\n' rfl, inductionHypothesis]
    rfl

/-- The text of a phrase has the end marks of its words. -/
theorem Phrase.endMarks_text (phrase : Phrase) :
    phrase.text.endMarks = (phrase.map fun word => word.chars.endMarks).sum := by
  rw [Text.endMarks_eq_sum, words_text]

/-- The dollar sign is part of no end mark. -/
theorem Variable.endMarks_spelled (binding : Variable) :
    binding.spelled.chars.endMarks = binding.name.chars.endMarks := by
  have other : ('$' : Char) ≠ '*' := by decide
  change Text.endMarks ('$' :: binding.name.chars) = _
  rw [Text.endMarks_cons, if_neg (fun begins => other begins.1), Nat.zero_add]

namespace Tag

/-- The texts of the fields that the tag stores. -/
def fieldTexts (tag : Tag) : List Text := tag.requiredTexts ++ tag.freeTexts

/-- The words of a tag have the end marks of its fields. -/
theorem sum_endMarks_words (tag : Tag) :
    (tag.words.map fun word => word.chars.endMarks).sum =
      (tag.fieldTexts.map Text.endMarks).sum := by
  cases tag <;>
    simp [words, Variable.words, Outcome.words, fieldTexts, requiredTexts, freeTexts,
      Phrase.endMarks_text, Variable.endMarks_spelled]

/-- The line of a tag has the end marks of its fields. -/
theorem endMarks_line (tag : Tag) :
    tag.line.endMarks = (tag.fieldTexts.map Text.endMarks).sum := by
  have noStarMark : Word.star.chars.endMarks = 0 := rfl
  have noSignMark : tag.kind.sign.chars.endMarks = 0 := by cases tag.kind <;> rfl
  rw [Line.endMarks, Text.endMarks_eq_sum, Reading.words_tag_line, List.map_cons, List.map_cons,
    List.sum_cons, List.sum_cons, noStarMark, noSignMark, sum_endMarks_words, Nat.zero_add,
    Nat.zero_add]

end Tag

namespace Comment

/-- How many end marks the comment stores: in the lines of its description and in the
fields of the tags that are written. -/
def storedEndMarks (comment : Comment) : Nat :=
  (comment.description.map fun line => line.chars.endMarks).sum +
    (comment.writtenTags.map fun tag => (tag.fieldTexts.map Text.endMarks).sum).sum

/-- A body has the end marks that the comment stores. -/
theorem endMarks_body (comment : Comment) :
    (Text.ofEndedLines comment.body).endMarks = comment.storedEndMarks := by
  have noSeparatorMark : (comment.separator.map Line.endMarks).sum = 0 := by
    rw [separator]
    split <;> rfl
  have descriptionMarks : (comment.writtenDescription.map Line.endMarks).sum =
      (comment.description.map Line.endMarks).sum := by
    simp only [writtenDescription, List.map_map, Function.comp_def, Line.endMarks_starred]
    exact Line.sum_endMarks_normalLines comment.description
  have tagMarks : ((comment.writtenTags.map Tag.line).map Line.endMarks).sum =
      (comment.writtenTags.map fun tag => (tag.fieldTexts.map Text.endMarks).sum).sum := by
    simp only [List.map_map, Function.comp_def, Tag.endMarks_line]
  rw [Text.endMarks_ofEndedLines, body, List.map_append, List.map_append, List.sum_append,
    List.sum_append, noSeparatorMark, descriptionMarks, tagMarks]
  rfl

/-- Behind the end marks of a body, a block has one more with only LF behind it. -/
theorem behindEndMarks_source (comment : Comment) (written : comment.source ≠ []) :
    comment.source.behindEndMarks =
      (Text.ofEndedLines comment.body).behindEndMarks.map (· ++ " */\n".toList) ++ [['\n']] := by
  have someBody : comment.body ≠ [] := by
    intro noBody
    exact written (by rw [source_eq, if_pos noBody])
  have framed : comment.source =
      "\n/**".toList ++ '\n' :: (Text.ofEndedLines comment.body ++ ' ' :: "*/\n".toList) := by
    rw [source_eq, if_neg someBody]
    simp
  have noMark : Text.behindEndMarks "\n/**".toList = [] := rfl
  have lastMark : Text.behindEndMarks "*/\n".toList = [['\n']] := rfl
  rw [framed, Text.behindEndMarks_append_blank _ _ '\n' rfl,
    Text.behindEndMarks_append_blank _ _ ' ' rfl, noMark, lastMark, List.map_nil, List.nil_append]
  rfl

/-- The first end mark of a block is that of its last line exactly when the comment
stores none. -/
theorem ends_at_last_line_iff (comment : Comment) (written : comment.source ≠ []) :
    comment.source.behindEndMarks.head? = some ['\n'] ↔ comment.storedEndMarks = 0 := by
  rw [behindEndMarks_source comment written, ← endMarks_body, Text.endMarks]
  cases found : (Text.ofEndedLines comment.body).behindEndMarks with
  | nil => simp
  | cons first others =>
    have tooLong : first ++ " */\n".toList ≠ ['\n'] := by
      intro same
      have sameLength := congrArg List.length same
      simp at sameLength
    simpa using tooLong

/-- A comment stores no end mark exactly when no line of its description and no field
of a written tag contains one. -/
theorem storedEndMarks_eq_zero_iff (comment : Comment) :
    comment.storedEndMarks = 0 ↔
      (∀ line ∈ comment.description, ¬ ['*', '/'] <:+: line.chars) ∧
        ∀ tag ∈ comment.writtenTags, ∀ field ∈ tag.fieldTexts, ¬ ['*', '/'] <:+: field := by
  simp only [storedEndMarks, ← Text.endMarks_eq_zero_iff, Nat.add_eq_zero_iff,
    List.sum_eq_zero_iff_forall_eq_nat, List.forall_mem_map]

/-- A block has one end mark more than the comment stores in the lines of its
description and in the fields of the written tags. So writing makes none but that of the
last line, and the block ends there exactly when no stored text contains an end mark.
The license has no part in this, since the block is the same whatever it is. -/
theorem endMarks_source (comment : Comment) (written : comment.source ≠ []) :
    comment.source.endMarks = 1 +
        ((comment.description.map fun line => line.chars.endMarks).sum +
          (comment.writtenTags.map fun tag => (tag.fieldTexts.map Text.endMarks).sum).sum) ∧
      (comment.source.behindEndMarks.head? = some ['\n'] ↔
        (∀ line ∈ comment.description, ¬ ['*', '/'] <:+: line.chars) ∧
          ∀ tag ∈ comment.writtenTags, ∀ field ∈ tag.fieldTexts, ¬ ['*', '/'] <:+: field) ∧
      ∀ license, { comment with license := license }.source = comment.source := by
  refine ⟨?_, ?_, fun _ => rfl⟩
  · have bodyMarks : (Text.ofEndedLines comment.body).behindEndMarks.length =
        comment.storedEndMarks := comment.endMarks_body
    rw [Text.endMarks, behindEndMarks_source comment written, List.length_append, List.length_map,
      bodyMarks, List.length_singleton, Nat.add_comm]
    rfl
  · rw [ends_at_last_line_iff comment written, storedEndMarks_eq_zero_iff]

/-- A comment in which stars and slashes stand at the ends of its lines and fields. One
field is an end mark, and so is the license. -/
def seams : Comment where
  description := [.ofChars "/ sizes *".toList rfl, .ofChars "\t/*".toList rfl]
  license := some [.ofChars "*/".toList (by simp) rfl]
  params := [⟨.ofChars "int*".toList (by simp) rfl, .ofChars "/id".toList (by simp) rfl,
    [.ofChars "*/".toList (by simp) rfl, .ofChars "/".toList (by simp) rfl]⟩]

/-- The block of these texts has the end mark of the field and that of its last line, and
does not end there. -/
theorem endMarks_source_of_seams :
    seams.source ≠ [] ∧ seams.source.endMarks = 2 ∧
      seams.source.behindEndMarks.head? ≠ some ['\n'] := by
  have written : seams.source ≠ [] := List.cons_ne_nil _ _
  have marks := endMarks_source seams written
  refine ⟨written, marks.1, ?_⟩
  intro ends
  obtain ⟨_, noFieldMark⟩ := marks.2.1.mp ends
  exact noFieldMark _ List.mem_cons_self "*/ /".toList (by decide) ⟨[], " /".toList, rfl⟩

end Comment

end CommentBlock
