import CommentBlock.Text.Line
import Mathlib.Data.List.DropRight

/-!
# The words of a text

A blank inside a text separates its words, so the words of the two sides follow
one another. From that one equation: blanks at the ends carry nothing, trimming
keeps the words, and the text of a phrase has exactly the words of the phrase.
-/

namespace CommentBlock

namespace Text

/-- A blank in front opens no word. -/
theorem words_cons_blank (c : Char) (rest : Text) (blank : isBlank c = true) :
    words (c :: rest) = words rest := by
  simp [words, blank]

/-- A character that is not blank joins the word behind it or is a word alone. -/
theorem words_cons_solid (c : Char) (rest : Text) (solid : isBlank c = false) :
    words (c :: rest) = prependToWords c solid (startsSolid rest) (words rest) := by
  simp [words, solid]

/-- A text that begins with a word has one. -/
theorem words_ne_nil (text : Text) (starts : startsSolid text = true) : words text ≠ [] := by
  cases text with
  | nil => simp [startsSolid] at starts
  | cons c rest =>
    have solid : isBlank c = false := by simpa [startsSolid] using starts
    rw [words_cons_solid c rest solid]
    cases startsSolid rest <;> cases words rest <;> simp [prependToWords]

/-- A text has no words exactly when all its characters are blank. -/
theorem words_eq_nil_iff (text : Text) : words text = [] ↔ ∀ c ∈ text, isBlank c = true := by
  induction text with
  | nil => simp [words]
  | cons c rest inductionHypothesis =>
    cases blank : isBlank c with
    | true => simp [words_cons_blank c rest blank, inductionHypothesis, blank]
    | false =>
      have nonempty : words (c :: rest) ≠ [] := words_ne_nil _ (by simp [startsSolid, blank])
      simp [nonempty, blank]

/-- A nonempty text without blanks is one word. -/
theorem words_of_solid (text : Text) (nonempty : text ≠ [])
    (solid : ∀ c ∈ text, isBlank c = false) : words text = [⟨text, nonempty, solid⟩] := by
  induction text with
  | nil => exact absurd rfl nonempty
  | cons c rest inductionHypothesis =>
    obtain ⟨first, others⟩ := List.forall_mem_cons.mp solid
    rw [words_cons_solid c rest first]
    cases rest with
    | nil => rfl
    | cons d more =>
      have second : isBlank d = false := others d List.mem_cons_self
      rw [inductionHypothesis (List.cons_ne_nil d more) others]
      simp [startsSolid, second, prependToWords, Word.cons]

/-- A word is the only word of its characters. -/
theorem words_chars (word : Word) : words word.chars = [word] :=
  words_of_solid word.chars word.nonempty word.solid

/-- Words do not reach across a blank. -/
theorem words_append_blank (front back : Text) (c : Char) (blank : isBlank c = true) :
    words (front ++ c :: back) = words front ++ words back := by
  induction front with
  | nil => simp [words_cons_blank c back blank, words]
  | cons d rest inductionHypothesis =>
    rw [List.cons_append]
    cases first : isBlank d with
    | true => rw [words_cons_blank _ _ first, words_cons_blank _ _ first, inductionHypothesis]
    | false =>
      -- Whether `d` joins a word is decided by its neighbour, the blank if `rest` is empty.
      have sameStart : startsSolid (rest ++ c :: back) = startsSolid rest := by
        cases rest <;> simp [startsSolid, blank]
      rw [words_cons_solid _ _ first, words_cons_solid _ _ first, sameStart, inductionHypothesis]
      cases starts : startsSolid rest with
      | false => simp [prependToWords]
      | true =>
        obtain ⟨word, more, same⟩ := List.exists_cons_of_ne_nil (words_ne_nil rest starts)
        simp [same, prependToWords]

/-- Blanks behind a text add no words. -/
theorem words_append_of_blank (front back : Text) (blank : ∀ c ∈ back, isBlank c = true) :
    words (front ++ back) = words front := by
  cases back with
  | nil => simp
  | cons c rest =>
    obtain ⟨first, others⟩ := List.forall_mem_cons.mp blank
    have noWords : words rest = [] := (words_eq_nil_iff rest).mpr others
    rw [words_append_blank front rest c first, noWords, List.append_nil]

/-- Dropping blanks in front keeps the words. -/
theorem words_dropWhile (text : Text) : words (text.dropWhile isBlank) = words text := by
  induction text with
  | nil => rfl
  | cons c rest inductionHypothesis =>
    cases blank : isBlank c with
    | true =>
      rw [List.dropWhile_cons_of_pos blank, inductionHypothesis, words_cons_blank c rest blank]
    | false => rw [List.dropWhile_cons_of_neg (by simp [blank])]

/-- Dropping blanks behind keeps the words. -/
theorem words_rdropWhile (text : Text) : words (text.rdropWhile isBlank) = words text := by
  have blank : ∀ c ∈ text.rtakeWhile isBlank, isBlank c = true := by
    intro c member
    exact List.mem_rtakeWhile_imp member
  calc words (text.rdropWhile isBlank)
      = words (text.rdropWhile isBlank ++ text.rtakeWhile isBlank) :=
        (words_append_of_blank _ _ blank).symm
    _ = words text := by rw [List.rdropWhile_append_rtakeWhile]

/-- Trimming is dropping the blanks in front and then those behind. -/
theorem trim_eq (text : Text) : text.trim = (text.dropWhile isBlank).rdropWhile isBlank := rfl

/-- Trimming keeps the words. -/
theorem words_trim (text : Text) : words text.trim = words text := by
  rw [trim_eq, words_rdropWhile, words_dropWhile]

/-- A text without blanks has nothing to trim. -/
theorem trim_of_solid (text : Text) (solid : ∀ c ∈ text, isBlank c = false) : text.trim = text := by
  have front : text.dropWhile isBlank = text := by
    apply List.dropWhile_eq_self_iff.mpr
    intro bound
    simp [solid _ (List.getElem_mem bound)]
  have behind : text.rdropWhile isBlank = text := by
    apply List.rdropWhile_eq_self_iff.mpr
    intro nonempty
    simp [solid _ (List.getLast_mem nonempty)]
  rw [trim_eq, front, behind]

end Text

namespace Phrase

/-- A phrase of several words is its first word, a space and the other words. -/
theorem text_cons (word next : Word) (rest : Phrase) :
    text (word :: next :: rest) = word.chars ++ ' ' :: text (next :: rest) := by
  simp [text, List.intercalate_cons_cons]

/-- The text of a phrase begins as its first word does. -/
theorem head?_text (word : Word) (rest : Phrase) :
    (text (word :: rest)).head? = word.chars.head? := by
  obtain ⟨c, others, same⟩ := List.exists_cons_of_ne_nil word.nonempty
  cases rest with
  | nil => simp [text]
  | cons next more => simp [text_cons, same]

/-- The text of a phrase ends in a character of its last word. -/
theorem isBlank_getLast?_text (phrase : Phrase) :
    ∀ c ∈ phrase.text.getLast?, isBlank c = false := by
  induction phrase with
  | nil => simp [text]
  | cons word rest inductionHypothesis =>
    cases rest with
    | nil =>
      intro c last
      have inside : c ∈ word.chars := List.mem_of_getLast? (by simpa [text] using last)
      exact word.solid c inside
    | cons next more =>
      obtain ⟨c, others, same⟩ := List.exists_cons_of_ne_nil next.nonempty
      have nonempty : text (next :: more) ≠ [] := by
        intro noText
        have noHead := head?_text next more
        simp [noText, same] at noHead
      rw [text_cons, List.getLast?_append_of_ne_nil _ (List.cons_ne_nil _ _),
        List.getLast?_cons_of_ne_nil nonempty]
      exact inductionHypothesis

/-- A phrase is read back from its text word by word. -/
theorem words_text (phrase : Phrase) : Text.words phrase.text = phrase := by
  induction phrase with
  | nil => rfl
  | cons word rest inductionHypothesis =>
    cases rest with
    | nil => simpa [text] using Text.words_chars word
    | cons next rest =>
      rw [text_cons, Text.words_append_blank word.chars _ ' ' rfl, Text.words_chars,
        inductionHypothesis, List.singleton_append]

/-- The same for the line of a phrase. -/
theorem words_line (phrase : Phrase) : Text.words phrase.line.chars = phrase := words_text phrase

end Phrase

end CommentBlock
