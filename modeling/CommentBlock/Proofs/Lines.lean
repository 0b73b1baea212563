import CommentBlock.Text.Line

/-!
# Lines that are written and read back

A line that is followed by LF is read as that line and leaves the rest of the
text to be read on its own. So lines that are each ended by LF are read back as
they are, whatever they hold. Lines that are only joined by LF are read back too,
unless the last of them is empty: nothing in the text shows that line.

Behind any text, LF leaves what follows to be read on its own as well. What depends on
the text in front is only whether LF ends a line of it, completes a CR, or makes an empty
line. Except for CR and LF no character is lost.
-/

namespace CommentBlock

/-- Lines with the same characters are the same. -/
theorem Line.eq_of_chars_eq (first second : Line) (same : first.chars = second.chars) :
    first = second := by
  cases first
  cases second
  cases same
  rfl

/-- A line holds neither CR nor LF. -/
theorem Line.not_mem_break (line : Line) : '\r' ∉ line.chars ∧ '\n' ∉ line.chars := by
  constructor
  · intro member
    exact absurd (line.unbroken '\r' member) (by decide)
  · intro member
    exact absurd (line.unbroken '\n' member) (by decide)

namespace Text

/-- A text that is not empty has a line. -/
theorem lines_ne_nil (text : Text) (nonempty : text ≠ []) : lines text ≠ [] := by
  fun_cases lines text with
  | case1 => exact absurd rfl nonempty
  | case2 => exact List.cons_ne_nil _ _
  | case3 c rest _ unbroken => cases lines rest <;> simp [prependToLines]
  | case4 => exact List.cons_ne_nil _ _

/-- A character that is no line end joins the first line behind it. -/
theorem lines_cons_unbroken (c : Char) (rest : Text) (unbroken : isBreak c = false) :
    lines (c :: rest) = prependToLines c unbroken (lines rest) := by
  have notReturn : ∀ more, c = '\r' → rest = '\n' :: more → False := by
    rintro _ rfl _
    exact absurd unbroken (by decide)
  rw [lines.eq_3 c rest notReturn, dif_pos unbroken]

/-- An LF in front ends an empty line. -/
theorem lines_cons_lf (rest : Text) : lines ('\n' :: rest) = .empty :: lines rest := by
  simp [lines, isBreak]

/-- A line end in front ends an empty line, unless it is a CR that an LF completes. -/
theorem lines_cons_break (c : Char) (rest : Text) (broken : isBreak c = true)
    (alone : ∀ more, c = '\r' → rest = '\n' :: more → False) :
    lines (c :: rest) = .empty :: lines rest := by
  rw [lines.eq_3 c rest alone, dif_neg (by simp [broken])]

/-- A line followed by LF is the first line of the text. -/
theorem lines_chars_append (line : Line) (rest : Text) :
    lines (line.chars ++ '\n' :: rest) = line :: lines rest := by
  obtain ⟨chars, unbroken⟩ := line
  induction chars with
  | nil => exact lines_cons_lf rest
  | cons c more inductionHypothesis =>
    obtain ⟨first, others⟩ := List.forall_mem_cons.mp unbroken
    rw [List.cons_append, lines_cons_unbroken c _ first, inductionHypothesis others]
    rfl

/-- A line that is not empty is a line without a line end too. -/
theorem lines_chars (line : Line) (nonempty : line.chars ≠ []) : lines line.chars = [line] := by
  obtain ⟨chars, unbroken⟩ := line
  induction chars with
  | nil => exact absurd rfl nonempty
  | cons c more inductionHypothesis =>
    obtain ⟨first, others⟩ := List.forall_mem_cons.mp unbroken
    rw [lines_cons_unbroken c more first]
    cases more with
    | nil => rfl
    | cons d more =>
      rw [inductionHypothesis others (List.cons_ne_nil d more)]
      rfl

/-- Lines that are each ended by LF are the first line, an LF and the other lines. -/
theorem ofEndedLines_cons (line : Line) (rest : List Line) :
    ofEndedLines (line :: rest) = line.chars ++ '\n' :: ofEndedLines rest := by
  simp [ofEndedLines, Line.ended]

/-- Two groups of lines that are each ended by LF follow one another. -/
theorem ofEndedLines_append (front back : List Line) :
    ofEndedLines (front ++ back) = ofEndedLines front ++ ofEndedLines back := List.flatMap_append

/-- Lines that are each ended by LF have a text unless there are none. -/
theorem ofEndedLines_eq_nil_iff (lines : List Line) : ofEndedLines lines = [] ↔ lines = [] := by
  cases lines <;> simp [ofEndedLines, Line.ended]

/-- Lines that are each ended by LF are read back. -/
theorem lines_ofEndedLines (given : List Line) : lines (ofEndedLines given) = given := by
  induction given with
  | nil => rfl
  | cons line rest inductionHypothesis =>
    rw [ofEndedLines_cons, lines_chars_append, inductionHypothesis]

/-- Several joined lines are the first line, an LF and the other lines joined. -/
theorem ofLines_cons_cons (line next : Line) (rest : List Line) :
    ofLines (line :: next :: rest) = line.chars ++ '\n' :: ofLines (next :: rest) := by
  simp [ofLines, List.intercalate_cons_cons]

/-- A single line is joined to nothing. -/
theorem ofLines_singleton (line : Line) : ofLines [line] = line.chars := by
  simp [ofLines]

/-- Joined lines are read back if the last of them is not empty. -/
theorem lines_ofLines (given : List Line)
    (closed : ∀ last ∈ given.getLast?, last.chars ≠ []) : lines (ofLines given) = given := by
  induction given with
  | nil => rfl
  | cons line rest inductionHypothesis =>
    cases rest with
    | nil =>
      rw [ofLines_singleton]
      exact lines_chars line (closed line rfl)
    | cons next more =>
      have closedRest : ∀ last ∈ (next :: more).getLast?, last.chars ≠ [] := by
        simpa only [List.getLast?_cons_cons] using closed
      rw [ofLines_cons_cons, lines_chars_append, inductionHypothesis closedRest]

/-- Joined lines of which the last is not empty have a text. -/
theorem ofLines_ne_nil (given : List Line) (nonempty : given ≠ [])
    (closed : ∀ last ∈ given.getLast?, last.chars ≠ []) : ofLines given ≠ [] := by
  intro noText
  have same : lines (ofLines given) = given := lines_ofLines given closed
  rw [noText] at same
  exact nonempty same.symm

/-- Behind a text and LF all lines are those of the text that follows. In front of
them stand the lines of the first text, with an empty line at their end if LF neither
ends an open line nor completes a CR.

Proof: induction follows the cutting of the first text into lines. Only where the
first text ends can LF meet a character in front of it. There it ends the line of an
ordinary character, joins a CR, and makes a line of its own behind another LF. -/
theorem exists_lines_append (front : Text) :
    ∃ gap : List Line, (gap = [] ∨ gap = [.empty]) ∧
      ∀ back : Text, lines (front ++ '\n' :: back) = lines front ++ gap ++ lines back := by
  fun_induction lines front with
  | case1 => exact ⟨[.empty], .inr rfl, lines_cons_lf⟩
  | case2 rest inductionHypothesis =>
    obtain ⟨gap, shape, split⟩ := inductionHypothesis
    refine ⟨gap, shape, ?_⟩
    intro back
    simp only [List.cons_append, lines, split]
  | case3 c rest _ unbroken inductionHypothesis =>
    by_cases last : rest = []
    · refine ⟨[], .inl rfl, ?_⟩
      intro back
      rw [last, List.singleton_append, lines_cons_unbroken c _ unbroken, lines_cons_lf]
      rfl
    · obtain ⟨gap, shape, split⟩ := inductionHypothesis
      obtain ⟨first, others, same⟩ := List.exists_cons_of_ne_nil (lines_ne_nil rest last)
      refine ⟨gap, shape, ?_⟩
      intro back
      rw [List.cons_append, lines_cons_unbroken c _ unbroken, split, same]
      rfl
  | case4 c rest alone unbroken inductionHypothesis =>
    have broken : isBreak c = true := by simpa using unbroken
    by_cases completed : c = '\r' ∧ rest = []
    · obtain ⟨rfl, rfl⟩ := completed
      refine ⟨[], .inl rfl, ?_⟩
      intro back
      simp [lines]
    · obtain ⟨gap, shape, split⟩ := inductionHypothesis
      refine ⟨gap, shape, ?_⟩
      intro back
      have stillAlone : ∀ more, c = '\r' → rest ++ '\n' :: back = '\n' :: more → False := by
        intro more isReturn begins
        cases rest with
        | nil => exact completed ⟨isReturn, rfl⟩
        | cons d others =>
          obtain ⟨rfl, _⟩ := List.cons.inj begins
          exact alone others isReturn rfl
      rw [List.cons_append, lines_cons_break c _ broken stillAlone, split]
      rfl

/-- The lines of a text with LF behind it go on with those of the text that follows. -/
theorem lines_append_lf (front back : Text) :
    lines (front ++ '\n' :: back) = lines (front ++ ['\n']) ++ lines back := by
  obtain ⟨gap, _, split⟩ := exists_lines_append front
  have ended : lines (front ++ ['\n']) = lines front ++ gap := by
    rw [split, lines, List.append_nil]
  rw [split, ended]

/-- CR and LF behind a text do what CR alone does there, and no more. -/
theorem lines_append_crlf (front back : Text) :
    lines (front ++ '\r' :: '\n' :: back) = lines (front ++ ['\r']) ++ lines back := by
  fun_induction lines front with
  | case1 => simp [lines, isBreak]
  | case2 rest inductionHypothesis => simp only [List.cons_append, lines, inductionHypothesis]
  | case3 c rest _ unbroken inductionHypothesis =>
    have filled : lines (rest ++ ['\r']) ≠ [] := lines_ne_nil _ (by simp)
    obtain ⟨first, others, same⟩ := List.exists_cons_of_ne_nil filled
    rw [List.cons_append, List.cons_append, lines_cons_unbroken c _ unbroken,
      lines_cons_unbroken c _ unbroken, inductionHypothesis, same]
    rfl
  | case4 c rest alone unbroken inductionHypothesis =>
    have broken : isBreak c = true := by simpa using unbroken
    have stillAlone : ∀ behind more, c = '\r' → rest ++ '\r' :: behind = '\n' :: more → False := by
      intro behind more isReturn begins
      cases rest with
      | nil => simp at begins
      | cons d others =>
        obtain ⟨rfl, _⟩ := List.cons.inj begins
        exact alone others isReturn rfl
    rw [List.cons_append, List.cons_append, lines_cons_break c _ broken (stillAlone _),
      lines_cons_break c _ broken (stillAlone _), inductionHypothesis]
    rfl

/-- A CR in front ends an empty line, whether or not it is completed. -/
theorem head?_lines_cr (rest : Text) : (lines ('\r' :: rest)).head? = some .empty := by
  by_cases completed : ∃ more, rest = '\n' :: more
  · obtain ⟨more, rfl⟩ := completed
    simp [lines]
  · have alone : ∀ more, '\r' = '\r' → rest = '\n' :: more → False := by
      intro more _ begins
      exact completed ⟨more, begins⟩
    rw [lines_cons_break '\r' rest rfl alone]
    rfl

/-- The lines hold all characters of the text but CR and LF, in order. -/
theorem flatMap_chars_lines (text : Text) :
    (lines text).flatMap Line.chars = text.filter fun c => !isBreak c := by
  fun_induction lines text with
  | case1 => rfl
  | case2 rest inductionHypothesis => simpa [Line.empty, isBreak] using inductionHypothesis
  | case3 c rest _ unbroken inductionHypothesis =>
    rw [List.filter_cons_of_pos (by simp [unbroken]), ← inductionHypothesis]
    cases lines rest <;> simp [prependToLines, Line.cons, Line.empty]
  | case4 c rest _ unbroken inductionHypothesis =>
    rw [List.filter_cons_of_neg (by simpa using unbroken), ← inductionHypothesis]
    rfl

end Text

end CommentBlock
