import CommentBlock.Comment.Source
import CommentBlock.Proofs.Lines
import CommentBlock.Proofs.Words

/-!
# Trimming joined lines

A description is brought into normal form as one text: it is joined, trimmed,
split again, and then each line is trimmed. Trimming the joined text removes
whole blank lines and parts of the first and last of the others at once. Here the
normal form is computed line by line: trim every line, then leave out the empty
lines before the first and after the last that is not empty.

The two ends are treated one after the other. `trimFirst` and `trimLast` say what
dropping the blanks at one end of the joined text does to its lines.
-/

namespace CommentBlock

section Ends

variable {α : Type} (p : α → Bool)

/-- Dropping from the end reaches the front part only when nothing of the back
part is kept. -/
theorem rdropWhile_append (front back : List α) :
    (front ++ back).rdropWhile p =
      if (back.rdropWhile p).isEmpty then front.rdropWhile p else front ++ back.rdropWhile p := by
  simp only [List.rdropWhile, List.reverse_append, List.dropWhile_append, List.isEmpty_reverse]
  split <;> simp

/-- The head is kept by dropping from the end unless nothing else is kept and it
is to be dropped itself. -/
theorem rdropWhile_cons (first : α) (rest : List α) :
    (first :: rest).rdropWhile p =
      if (rest.rdropWhile p).isEmpty then (if p first then [] else [first])
      else first :: rest.rdropWhile p := by
  have split := rdropWhile_append p [first] rest
  simpa only [List.rdropWhile_singleton, List.singleton_append] using split

/-- It does not matter which end is treated first. -/
theorem dropWhile_rdropWhile (items : List α) :
    (items.rdropWhile p).dropWhile p = (items.dropWhile p).rdropWhile p := by
  induction items with
  | nil => simp
  | cons first rest inductionHypothesis =>
    rw [rdropWhile_cons]
    by_cases dropped : p first = true
    · rw [List.dropWhile_cons_of_pos dropped, ← inductionHypothesis]
      by_cases noRest : (rest.rdropWhile p).isEmpty = true
      · simp [dropped, List.isEmpty_iff.mp noRest]
      · simp [noRest, dropped]
    · rw [List.dropWhile_cons_of_neg dropped, rdropWhile_cons]
      by_cases noRest : (rest.rdropWhile p).isEmpty = true <;> simp [noRest, dropped]

/-- What is left begins with an item that is kept. -/
theorem head?_rdropWhile_dropWhile (items : List α) :
    ∀ first ∈ ((items.dropWhile p).rdropWhile p).head?, p first = false := by
  rw [← dropWhile_rdropWhile]
  intro first begins
  have kept := List.head?_dropWhile_not p (items.rdropWhile p)
  rwa [begins] at kept

/-- What is left ends with an item that is kept. -/
theorem getLast?_rdropWhile (items : List α) :
    ∀ last ∈ (items.rdropWhile p).getLast?, p last = false := by
  intro last ends
  obtain ⟨nonempty, rfl⟩ := List.mem_getLast?_eq_getLast ends
  exact (Bool.not_eq_true _).mp (List.rdropWhile_last_not p items nonempty)

/-- Nothing is left exactly if every item is to be dropped. -/
theorem rdropWhile_dropWhile_eq_nil_iff (items : List α) :
    (items.dropWhile p).rdropWhile p = [] ↔ ∀ item ∈ items, p item = true := by
  rw [List.rdropWhile_eq_nil_iff]
  constructor
  · intro behind
    rw [← List.takeWhile_append_dropWhile (p := p) (l := items), List.forall_mem_append]
    exact ⟨fun item member => List.mem_takeWhile_imp member, behind⟩
  · intro all item member
    exact all item ((List.dropWhile_sublist p).mem member)

end Ends

namespace Text

/-- A trimmed text begins with a character that is not blank. -/
theorem isBlank_head?_trim (text : Text) : ∀ c ∈ text.trim.head?, isBlank c = false :=
  head?_rdropWhile_dropWhile isBlank text

/-- A trimmed text ends with a character that is not blank. -/
theorem isBlank_getLast?_trim (text : Text) : ∀ c ∈ text.trim.getLast?, isBlank c = false :=
  getLast?_rdropWhile isBlank (text.dropWhile isBlank)

/-- Nothing is left of a text after trimming exactly when it has no words. -/
theorem trim_eq_nil_iff (text : Text) : text.trim = [] ↔ words text = [] := by
  rw [trim_eq, List.rdropWhile_eq_nil_iff, ← words_eq_nil_iff, words_dropWhile]

end Text

namespace Line

/-- Whether the line has no characters. -/
def isEmpty (line : Line) : Bool := line.chars.isEmpty

/-- The line without the blanks at its front. -/
def trimStart (line : Line) : Line where
  chars := line.chars.dropWhile isBlank
  unbroken := fun c member => line.unbroken c ((List.dropWhile_sublist isBlank).mem member)

/-- The line without the blanks at its end. -/
def trimEnd (line : Line) : Line where
  chars := line.chars.rdropWhile isBlank
  unbroken := fun c member =>
    line.unbroken c ((List.rdropWhile_prefix isBlank line.chars).subset member)

/-- Trimming at the front first changes nothing about trimming. -/
theorem trim_trimStart (line : Line) : line.trimStart.trim = line.trim := by
  apply eq_of_chars_eq
  change ((line.chars.dropWhile isBlank).dropWhile isBlank).rdropWhile isBlank = _
  rw [List.dropWhile_idempotent]
  rfl

/-- Trimming at the end first changes nothing about trimming. -/
theorem trim_trimEnd (line : Line) : line.trimEnd.trim = line.trim := by
  apply eq_of_chars_eq
  change ((line.chars.rdropWhile isBlank).dropWhile isBlank).rdropWhile isBlank = _
  rw [dropWhile_rdropWhile, List.rdropWhile_idempotent]
  rfl

/-- A trimmed line is empty exactly when the line has no words. -/
theorem isEmpty_trim_iff (line : Line) :
    line.trim.isEmpty = true ↔ Text.words line.chars = [] := by
  rw [isEmpty, List.isEmpty_iff, ← Text.trim_eq_nil_iff]
  rfl

/-- Trimming at the front leaves nothing exactly of a line without words. -/
theorem isEmpty_trimStart_iff (line : Line) :
    line.trimStart.isEmpty = true ↔ Text.words line.chars = [] := by
  rw [isEmpty, List.isEmpty_iff, Text.words_eq_nil_iff]
  exact List.dropWhile_eq_nil_iff

/-- Trimming at the end leaves nothing exactly of a line without words. -/
theorem isEmpty_trimEnd_iff (line : Line) :
    line.trimEnd.isEmpty = true ↔ Text.words line.chars = [] := by
  rw [isEmpty, List.isEmpty_iff, Text.words_eq_nil_iff]
  exact List.rdropWhile_eq_nil_iff

/-- What is left of the lines when blanks are dropped at the front of their joined
text: blank lines go, and the next line loses the blanks at its front. -/
def trimFirst : List Line → List Line
  | [] => []
  | line :: rest => if line.trimStart.isEmpty then trimFirst rest else line.trimStart :: rest

/-- What is left of the lines when blanks are dropped at the end of their joined
text: blank lines go, and the last of the others loses the blanks at its end. -/
def trimLast : List Line → List Line
  | [] => []
  | line :: rest =>
    if (trimLast rest).isEmpty then (if line.trimEnd.isEmpty then [] else [line.trimEnd])
    else line :: trimLast rest

/-- Of a single line, either nothing is left or the line without the blanks at its
end. -/
theorem trimLast_singleton (line : Line) :
    trimLast [line] = if line.trimEnd.isEmpty then [] else [line.trimEnd] := by
  rw [trimLast, trimLast, List.isEmpty_nil, if_pos rfl]

/-- Of its text, the same is left. -/
theorem chars_trimEnd (line : Line) :
    line.chars.rdropWhile isBlank =
      Text.ofLines (if line.trimEnd.isEmpty then [] else [line.trimEnd]) := by
  by_cases blank : line.trimEnd.isEmpty = true
  · rw [if_pos blank]
    exact List.isEmpty_iff.mp blank
  · rw [if_neg blank, Text.ofLines_singleton]
    rfl

/-- The last line that `trimLast` keeps is not empty. -/
theorem trimLast_closed (lines : List Line) :
    ∀ last ∈ (trimLast lines).getLast?, last.chars ≠ [] := by
  induction lines with
  | nil => simp [trimLast]
  | cons line rest inductionHypothesis =>
    cases kept : trimLast rest with
    | nil =>
      by_cases blank : line.trimEnd.isEmpty = true
      · simp [trimLast, kept, blank]
      · have notNil : line.trimEnd.chars ≠ [] := by
          intro same
          exact blank (List.isEmpty_iff.mpr same)
        rw [trimLast, kept, List.isEmpty_nil, if_pos rfl, if_neg blank]
        simpa using notNil
    | cons next more =>
      rw [kept] at inductionHypothesis
      simpa only [trimLast, kept, List.isEmpty_cons, Bool.false_eq_true, if_false,
        List.getLast?_cons_cons] using inductionHypothesis

end Line

namespace Text

/-- Dropping blanks at the front of joined lines. -/
theorem dropWhile_ofLines (lines : List Line) :
    (ofLines lines).dropWhile isBlank = ofLines (Line.trimFirst lines) := by
  induction lines with
  | nil => rfl
  | cons line rest inductionHypothesis =>
    have lineFeed : isBlank '\n' = true := rfl
    cases rest with
    | nil =>
      rw [ofLines_singleton, Line.trimFirst]
      by_cases blank : line.trimStart.isEmpty = true
      · rw [if_pos blank]
        exact List.isEmpty_iff.mp blank
      · rw [if_neg blank, ofLines_singleton]
        rfl
    | cons next more =>
      rw [ofLines_cons_cons, List.dropWhile_append, List.dropWhile_cons_of_pos lineFeed,
        inductionHypothesis, Line.trimFirst.eq_2 line (next :: more)]
      -- Either way the test is whether the first line is blank.
      change (if line.trimStart.isEmpty then _ else _) = _
      by_cases blank : line.trimStart.isEmpty = true
      · rw [if_pos blank, if_pos blank]
      · rw [if_neg blank, if_neg blank, ofLines_cons_cons]
        rfl

/-- Dropping blanks at the end of joined lines. -/
theorem rdropWhile_ofLines (lines : List Line) :
    (ofLines lines).rdropWhile isBlank = ofLines (Line.trimLast lines) := by
  induction lines with
  | nil => rfl
  | cons line rest inductionHypothesis =>
    have lineFeed : isBlank '\n' = true := rfl
    cases rest with
    | nil =>
      rw [ofLines_singleton, Line.trimLast_singleton]
      exact Line.chars_trimEnd line
    | cons next more =>
      have joined : ofLines (line :: next :: more) =
          (line.chars ++ ['\n']) ++ ofLines (next :: more) := by
        rw [ofLines_cons_cons, List.append_assoc, List.singleton_append]
      rw [joined, rdropWhile_append, inductionHypothesis, Line.trimLast.eq_2 line (next :: more)]
      by_cases noRest : Line.trimLast (next :: more) = []
      · simp only [noRest, ofLines, List.map_nil, List.intercalate_nil, List.isEmpty_nil, if_true]
        rw [List.rdropWhile_concat_pos _ _ _ lineFeed]
        exact Line.chars_trimEnd line
      · have noText : ofLines (Line.trimLast (next :: more)) ≠ [] :=
          ofLines_ne_nil _ noRest (Line.trimLast_closed (next :: more))
        obtain ⟨kept, others, same⟩ := List.exists_cons_of_ne_nil noRest
        simp only [List.isEmpty_iff, noText, noRest, if_false]
        rw [same, ofLines_cons_cons, List.append_assoc, List.singleton_append]

end Text

namespace Line

/-- Lines that are trimmed after `trimFirst` are the trimmed lines without the
empty ones in front. -/
theorem map_trim_trimFirst (lines : List Line) :
    (trimFirst lines).map trim = (lines.map trim).dropWhile isEmpty := by
  induction lines with
  | nil => rfl
  | cons line rest inductionHypothesis =>
    have sameTest : line.trimStart.isEmpty = line.trim.isEmpty := by
      rw [Bool.eq_iff_iff, isEmpty_trimStart_iff, isEmpty_trim_iff]
    rw [trimFirst, List.map_cons, List.dropWhile_cons, sameTest]
    split
    · exact inductionHypothesis
    · rw [List.map_cons, trim_trimStart]

/-- Lines that are trimmed after `trimLast` are the trimmed lines without the
empty ones at the end. -/
theorem map_trim_trimLast (lines : List Line) :
    (trimLast lines).map trim = (lines.map trim).rdropWhile isEmpty := by
  induction lines with
  | nil => rfl
  | cons line rest inductionHypothesis =>
    have sameTest : line.trimEnd.isEmpty = line.trim.isEmpty := by
      rw [Bool.eq_iff_iff, isEmpty_trimEnd_iff, isEmpty_trim_iff]
    rw [trimLast, List.map_cons, rdropWhile_cons, ← inductionHypothesis, List.isEmpty_map, sameTest]
    split
    · split
      · rfl
      · rw [List.map_singleton, trim_trimEnd]
    · rw [List.map_cons]

/-- The lines trimmed one by one, without the empty ones in front of the first and behind
the last that is not empty. -/
def trimEach (lines : List Line) : List Line :=
  ((lines.map trim).dropWhile isEmpty).rdropWhile isEmpty

end Line

/-- The normal form of a description line by line: every line is trimmed, and the
empty lines at the two ends are left out. -/
theorem Comment.normalLines_eq (description : List Line) :
    Comment.normalLines description = Line.trimEach description := by
  have trimmed : (Text.ofLines description).trim =
      Text.ofLines (Line.trimLast (Line.trimFirst description)) := by
    rw [Text.trim_eq, Text.dropWhile_ofLines, Text.rdropWhile_ofLines]
  rw [Comment.normalLines, trimmed, Text.lines_ofLines _ (Line.trimLast_closed _),
    Line.map_trim_trimLast, Line.map_trim_trimFirst, Line.trimEach]

end CommentBlock
