import CommentBlock.Text.Line
import CommentBlock.Text.Quoted
import CommentBlock.Proofs.JsonText

/-!
# Reading quoted text

A quoted text shows all that it holds. No character of it is hidden, and the text between the
quotes is told by what stands there: an escape begins with a backslash, which stands for
itself only behind another one, a code point ends at its closing brace, and a quote without a
backslash in front of it can only be the closing one. So a quoted text is known from the
front of any text that begins with it.
-/

namespace CommentBlock

/-- Whether the character is a space or a visible character of ASCII. -/
def isPrintable (c : Char) : Bool := decide (0x20 ≤ c.toNat) && decide (c.toNat ≤ 0x7E)

/-- The table of invisible characters begins above ASCII. -/
theorem le_of_mem_invisibleRanges : ∀ range ∈ invisibleRanges, 0xAD ≤ range.1 := by
  decide +kernel

/-- A character is in none of the ranges if it lies in front of each or behind it. -/
theorem CodeRanges.contains_eq_false (ranges : CodeRanges) (c : Char)
    (outside : ∀ range ∈ ranges, c.toNat < range.1 ∨ range.2 < c.toNat) :
    ranges.contains c = false := by
  rw [contains, List.any_eq_false]
  intro range member
  rw [Bool.and_eq_true, decide_eq_true_iff, decide_eq_true_iff]
  have apart := outside range member
  omega

/-- Printable characters are not hidden. -/
theorem isHidden_of_isPrintable (c : Char) (printable : isPrintable c = true) :
    isHidden c = false := by
  simp only [isPrintable, Bool.and_eq_true, decide_eq_true_eq] at printable
  obtain ⟨low, high⟩ := printable
  have noControl : isControl c = false := by
    apply CodeRanges.contains_eq_false
    simp only [controlRanges, List.forall_mem_cons]
    exact ⟨by omega, by omega, by simp⟩
  have onlySpace : (isBlank c && c != ' ') = false := by
    by_cases space : c = ' '
    · simp [space]
    · have code : c.toNat ≠ 0x20 := fun same => space (Char.toNat_inj.mp same)
      rw [Bool.and_eq_false_iff]
      refine .inl (CodeRanges.contains_eq_false blankRanges c ?_)
      simp only [blankRanges, List.forall_mem_cons]
      refine ⟨?_, ?_, ?_, ?_, ?_, ?_, ?_, ?_, ?_, ?_, by simp⟩ <;> omega
  have notInvisible : invisibleRanges.contains c = false := by
    apply CodeRanges.contains_eq_false
    intro range member
    have above := le_of_mem_invisibleRanges range member
    omega
  rw [isHidden, noControl, onlySpace, notInvisible]
  rfl

namespace Text

/-- Whether every character of the text is seen. -/
def IsVisible (text : Text) : Prop := ∀ c ∈ text, isHidden c = false

/-- A text of printable characters is visible. -/
theorem isVisible_of_printable (text : Text) (printable : text.all isPrintable = true) :
    text.IsVisible := by
  intro c member
  exact isHidden_of_isPrintable c (List.all_eq_true.mp printable c member)

/-- A visible text has no control characters and no line ends. -/
theorem IsVisible.onOneLine {text : Text} (visible : text.IsVisible) :
    ∀ c ∈ text, isControl c = false ∧ isBreak c = false ∧ isHidden c = false := by
  intro c member
  have seen := visible c member
  have noControl : isControl c = false := by
    simp only [isHidden, Bool.or_eq_false_iff] at seen
    exact seen.1.1
  have noEnd : c ≠ '\n' ∧ c ≠ '\r' := by
    constructor
    · rintro rfl
      exact absurd noControl (by decide)
    · rintro rfl
      exact absurd noControl (by decide)
  exact ⟨noControl, by simp [isBreak, noEnd], seen⟩

/-- Two texts together are visible exactly if both are. -/
theorem isVisible_append_iff (front back : Text) :
    IsVisible (front ++ back) ↔ front.IsVisible ∧ back.IsVisible := List.forall_mem_append

end Text

section Hexadecimal

/-- Every hexadecimal digit of a number is that of a number below sixteen. -/
theorem exists_of_mem_toDigits (number : Nat) :
    ∀ digit ∈ Nat.toDigits 16 number, ∃ value < 16, digit = Nat.digitChar value := by
  induction number using Nat.strongRecOn with
  | ind number inductionHypothesis =>
    rw [Nat.toDigits_eq_if (by decide)]
    split
    · rintro digit member
      exact ⟨number, ‹_›, List.mem_singleton.mp member⟩
    · intro digit member
      rcases List.mem_append.mp member with front | last
      · exact inductionHypothesis (number / 16) (by omega) digit front
      · exact ⟨number % 16, Nat.mod_lt _ (by decide), List.mem_singleton.mp last⟩

/-- The number that hexadecimal digits stand for. -/
def ofHexDigits (digits : Text) : Nat :=
  digits.foldl (fun number digit => 16 * number + Json.hexValue digit) 0

/-- A number is read back from its hexadecimal digits. -/
theorem ofHexDigits_toDigits (number : Nat) : ofHexDigits (Nat.toDigits 16 number) = number := by
  induction number using Nat.strongRecOn with
  | ind number inductionHypothesis =>
    rw [Nat.toDigits_eq_if (by decide)]
    split
    · have single := Json.hexValue_digitChar number ‹_›
      simp [ofHexDigits, single]
    · have front := inductionHypothesis (number / 16) (by omega)
      have last := Json.hexValue_digitChar (number % 16) (Nat.mod_lt _ (by decide))
      rw [ofHexDigits] at front
      rw [ofHexDigits, List.foldl_append, front, List.foldl_cons, List.foldl_nil, last]
      exact Nat.div_add_mod number 16

/-- The digits of a character hold no closing brace, and all of them are printable. -/
theorem of_mem_hexDigits (c digit : Char) (member : digit ∈ hexDigits c) :
    (digit != '\x7d') = true ∧ isPrintable digit = true := by
  obtain ⟨value, below, rfl⟩ := exists_of_mem_toDigits c.toNat digit member
  have all : ∀ value < 16, (Nat.digitChar value != '\x7d') = true ∧
      isPrintable (Nat.digitChar value) = true := by decide
  exact all value below

end Hexadecimal

/-- The escapes of two characters: what stands behind the backslash and what it is read as. -/
def quotedEscapes : List (Char × Char) :=
  [('0', '\x00'), ('t', '\t'), ('r', '\r'), ('n', '\n'), ('"', '"'), ('\\', '\\')]

/-- A character between quotes is written by an escape of two characters, by its code point or
as it is, the last only if it is seen and is neither a quote nor a backslash. -/
theorem quotedChar_cases (c : Char) :
    (∃ letter, (letter, c) ∈ quotedEscapes ∧ quotedChar c = ['\\', letter]) ∨
      quotedChar c = ['\\', 'u', '\x7b'] ++ hexDigits c ++ ['\x7d'] ∨
      (c ≠ '"' ∧ c ≠ '\\' ∧ isHidden c = false ∧ quotedChar c = [c]) := by
  unfold quotedChar
  split
  case h_7 _ _ _ _ notQuote notBackslash =>
    split
    · exact .inr (.inl rfl)
    · exact .inr (.inr ⟨notQuote, notBackslash, (Bool.not_eq_true _).mp ‹_›, rfl⟩)
  all_goals exact .inl ⟨_, by decide, rfl⟩

/-- Takes one written character from the front of a text. -/
def unquote : Text → Option (Char × Text)
  | '\\' :: 'u' :: '\x7b' :: rest =>
    some (Char.ofNat (ofHexDigits (rest.takeWhile (· != '\x7d'))),
      (rest.dropWhile (· != '\x7d')).tail)
  | '\\' :: letter :: rest => (quotedEscapes.lookup letter).map fun c => (c, rest)
  | c :: rest => some (c, rest)
  | [] => none

/-- A written character is taken from the front whatever follows it. -/
theorem unquote_quotedChar (c : Char) (rest : Text) :
    unquote (quotedChar c ++ rest) = some (c, rest) := by
  rcases quotedChar_cases c with ⟨letter, short, written⟩ | written | ⟨_, differs, _, written⟩
  · have known : ∀ pair ∈ quotedEscapes,
        pair.1 ≠ 'u' ∧ quotedEscapes.lookup pair.1 = some pair.2 := by decide
    obtain ⟨notU, found⟩ := known _ short
    rw [written]
    simp [unquote, notU, found]
  · have digits : ∀ digit ∈ hexDigits c, (digit != '\x7d') = true := fun digit member =>
      (of_mem_hexDigits c digit member).1
    have code : ofHexDigits (hexDigits c) = c.toNat := ofHexDigits_toDigits c.toNat
    rw [written]
    simp [unquote, List.takeWhile_append_of_pos digits, List.dropWhile_append_of_pos digits, code]
  · rw [written]
    simp [unquote, differs]

/-- Quoted characters are a prefix code. -/
theorem isPrefixCode_quotedChar : IsPrefixCode quotedChar :=
  isPrefixCode_of_reader unquote unquote_quotedChar

/-- No written character begins with a quote. -/
theorem quotedChar_opensApart : OpensApartFrom quotedChar '"' := by
  intro c
  rcases quotedChar_cases c with ⟨letter, _, written⟩ | written | ⟨differs, _, _, written⟩
  · exact ⟨'\\', by rw [written]; rfl, by decide⟩
  · exact ⟨'\\', by rw [written]; rfl, by decide⟩
  · exact ⟨c, by rw [written]; rfl, differs⟩

/-- A written character is visible. -/
theorem isVisible_quotedChar (c : Char) : Text.IsVisible (quotedChar c) := by
  rcases quotedChar_cases c with ⟨letter, short, written⟩ | written | ⟨_, _, seen, written⟩
  · have printable : ∀ pair ∈ quotedEscapes, ['\\', pair.1].all isPrintable = true := by decide
    rw [written]
    exact Text.isVisible_of_printable _ (printable _ short)
  · rw [written]
    apply Text.isVisible_of_printable
    have digits : (hexDigits c).all isPrintable = true :=
      List.all_eq_true.mpr fun digit member => (of_mem_hexDigits c digit member).2
    simp [digits, isPrintable]
  · rw [written]
    exact List.forall_mem_singleton.mpr seen

namespace Text

/-- A quoted text ends at the first quote that is not part of a written character. -/
theorem isPrefixCode_quoted : IsPrefixCode quoted := by
  intro text
  have characters : ∀ c ∈ text, IsReadUniquely quotedChar c := fun c _ => isPrefixCode_quotedChar c
  exact (isReadUniquely_list quotedChar_opensApart text characters).behind ['"']

/-- A quoted text is visible whatever the text is. -/
theorem isVisible_quoted (text : Text) : text.quoted.IsVisible := by
  have quote : IsVisible ['"'] := isVisible_of_printable _ rfl
  have inside : IsVisible (text.flatMap quotedChar) := by
    intro d member
    obtain ⟨c, _, written⟩ := List.mem_flatMap.mp member
    exact isVisible_quotedChar c d written
  exact (isVisible_append_iff _ _).mpr ⟨(isVisible_append_iff ['"'] _).mpr ⟨quote, inside⟩, quote⟩

end Text

end CommentBlock
