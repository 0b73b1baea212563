import CommentBlock.Proofs.JsonText

/-!
# Layouts of JSON text

Dropping blanks outside of strings needs one look at each character and the knowledge
whether it stands in a string. In a string everything is kept, and the character behind a
backslash ends none.

What a layout puts between tokens is dropped if it is blank, and everything else is kept.
What remains is the compact text, from which the value is known. So no such layout loses
anything.
-/

namespace CommentBlock.Json

mutual

/-- The text without the blanks outside of strings, when it begins outside of one. -/
def withoutGaps : Text → Text
  | [] => []
  | '"' :: rest => '"' :: withoutGapsInside rest
  | c :: rest => if isBlank c then withoutGaps rest else c :: withoutGaps rest

/-- The text without the blanks outside of strings, when it begins inside of one. -/
def withoutGapsInside : Text → Text
  | [] => []
  | '"' :: rest => '"' :: withoutGaps rest
  | '\\' :: c :: rest => '\\' :: c :: withoutGapsInside rest
  | c :: rest => c :: withoutGapsInside rest

end

/-- Whether the character is kept everywhere and opens no string. -/
def isToken (c : Char) : Bool := !isBlank c && c != '"'

/-- Whether the text becomes the other one wherever it stands outside of strings, and leaves
off outside of strings as well. -/
def Compacts (text bare : Text) : Prop :=
  ∀ rest, withoutGaps (text ++ rest) = bare ++ withoutGaps rest

namespace Compacts

/-- Texts one after the other. -/
theorem append {front back bareFront bareBack : Text} (first : Compacts front bareFront)
    (second : Compacts back bareBack) : Compacts (front ++ back) (bareFront ++ bareBack) := by
  intro rest
  rw [List.append_assoc, first, second, List.append_assoc]

/-- Blanks become nothing. -/
theorem gap {text : Text} (blank : ∀ c ∈ text, isBlank c = true) : Compacts text [] := by
  intro rest
  induction text with
  | nil => rfl
  | cons c more inductionHypothesis =>
    obtain ⟨first, others⟩ := List.forall_mem_cons.mp blank
    have notQuote : c ≠ '"' := by
      intro quote
      subst quote
      cases first
    have dropped : withoutGaps (c :: (more ++ rest)) = withoutGaps (more ++ rest) := by
      simp [withoutGaps, first]
    rw [List.cons_append, dropped]
    exact inductionHypothesis others

/-- Characters that are neither blank nor quotes are kept. -/
theorem token {text : Text} (tokens : text.all isToken = true) : Compacts text text := by
  intro rest
  induction text with
  | nil => rfl
  | cons c more inductionHypothesis =>
    obtain ⟨⟨first, notQuote⟩, others⟩ :
        (isBlank c = false ∧ c ≠ '"') ∧ more.all isToken = true := by
      simpa only [List.all_cons, isToken, Bool.and_eq_true, Bool.not_eq_true', bne_iff_ne]
        using tokens
    have kept : withoutGaps (c :: (more ++ rest)) = c :: withoutGaps (more ++ rest) := by
      simp [withoutGaps, first]
    rw [List.cons_append, kept, inductionHypothesis others, List.cons_append]

/-- Lists of texts, each of which becomes another. -/
theorem flatMap {α : Type} {write bare : α → Text} (items : List α)
    (each : ∀ item ∈ items, Compacts (write item) (bare item)) :
    Compacts (items.flatMap write) (items.flatMap bare) := by
  induction items with
  | nil => exact fun rest => rfl
  | cons item more inductionHypothesis =>
    obtain ⟨first, others⟩ := List.forall_mem_cons.mp each
    exact first.append (inductionHypothesis others)

end Compacts

/-- Inside of a string a written character is kept and does not end the string. -/
theorem withoutGapsInside_escapedChar (c : Char) (rest : Text) :
    withoutGapsInside (escapedChar c ++ rest) = escapedChar c ++ withoutGapsInside rest := by
  rcases escapedChar_cases c with
    ⟨letter, _, written⟩ | ⟨low, written⟩ | ⟨notQuote, notBackslash, written⟩
  · rw [written]
    simp [withoutGapsInside]
  · have digits : ∀ number < 16,
        Nat.digitChar number ≠ '"' ∧ Nat.digitChar number ≠ '\\' := by decide
    have high := digits (c.toNat / 16) (by omega)
    have low := digits (c.toNat % 16) (by omega)
    rw [written]
    simp [withoutGapsInside, high, low]
  · rw [written]
    simp [withoutGapsInside, notBackslash]

/-- A string is kept with all its blanks. -/
theorem compacts_stringLiteral (value : Text) :
    Compacts (stringLiteral value) (stringLiteral value) := by
  have inside : ∀ rest, withoutGapsInside (value.flatMap escapedChar ++ '"' :: rest) =
      value.flatMap escapedChar ++ '"' :: withoutGaps rest := by
    intro rest
    induction value with
    | nil => simp [withoutGapsInside]
    | cons c more inductionHypothesis =>
      rw [List.flatMap_cons, List.append_assoc, withoutGapsInside_escapedChar,
        inductionHypothesis, List.append_assoc]
  intro rest
  simp [stringLiteral, withoutGaps, inside]

/-- Whether there is nothing but blanks between tokens. -/
structure Layout.IsBlank (layout : Layout) : Prop where
  beforeItem : ∀ depth, ∀ c ∈ layout.beforeItem depth, isBlank c = true
  afterColon : ∀ c ∈ layout.afterColon, isBlank c = true

/-- The pretty layout puts line ends and spaces between tokens. -/
theorem Layout.isBlank_pretty : Layout.pretty.IsBlank where
  beforeItem depth c member := by
    rcases List.mem_cons.mp member with lineEnd | space
    · exact lineEnd ▸ rfl
    · exact (List.mem_replicate.mp space).2 ▸ rfl
  afterColon c member := by
    exact List.mem_singleton.mp member ▸ rfl

section Printing

variable {layout : Layout} (blank : layout.IsBlank)

include blank

/-- A member becomes its compact text if its value does. -/
theorem compacts_memberText (depth : Nat) (member : Text × Json)
    (value : Compacts (print layout depth member.2) (print .compact depth member.2)) :
    Compacts (memberText layout depth member) (memberText .compact depth member) := by
  have colon : Compacts [':'] [':'] := .token rfl
  have behindKey : Compacts (':' :: layout.afterColon) [':'] := colon.append (.gap blank.afterColon)
  exact ((compacts_stringLiteral member.1).append behindKey).append value

/-- Without the blanks outside of strings the text of a value is its compact text.

Proof: by induction on the value. The brackets, commas and colons are kept, as are strings;
what the layout adds is dropped. -/
theorem compacts_print (value : Json) :
    ∀ depth, Compacts (print layout depth value) (print .compact depth value) := by
  have gap : ∀ depth, Compacts (layout.beforeItem depth) [] :=
    fun depth => .gap (blank.beforeItem depth)
  have lead : ∀ (c : Char) (depth : Nat), isToken c = true →
      Compacts (c :: layout.beforeItem depth) [c] := by
    intro c depth tokens
    have token : Compacts [c] [c] := .token (by simpa using tokens)
    exact token.append (gap depth)
  induction value using induct with
  | null =>
    have word : Compacts "null".toList "null".toList := .token rfl
    exact fun depth => word
  | string value => exact fun depth => compacts_stringLiteral value
  | array items inductionHypothesis =>
    intro depth
    cases items with
    | nil =>
      have brackets : Compacts ['[', ']'] ['[', ']'] := .token rfl
      exact brackets
    | cons item more =>
      obtain ⟨first, others⟩ := List.forall_mem_cons.mp inductionHypothesis
      have closing : Compacts [']'] [']'] := .token rfl
      have later : Compacts (printItems layout (depth + 1) more)
          (printItems .compact (depth + 1) more) := by
        rw [printItems_eq_flatMap, printItems_eq_flatMap]
        exact .flatMap more fun item inside =>
          (lead ',' _ rfl).append (others item inside _)
      exact ((((lead '[' _ rfl).append (first _)).append later).append (gap _)).append
        closing
  | object members inductionHypothesis =>
    intro depth
    cases members with
    | nil =>
      have brackets : Compacts ['\x7b', '\x7d'] ['\x7b', '\x7d'] := .token rfl
      exact brackets
    | cons member more =>
      obtain ⟨first, others⟩ := List.forall_mem_cons.mp inductionHypothesis
      have closing : Compacts ['\x7d'] ['\x7d'] := .token rfl
      have later : Compacts (printMembers layout (depth + 1) more)
          (printMembers .compact (depth + 1) more) := by
        rw [printMembers_eq_flatMap, printMembers_eq_flatMap]
        exact .flatMap more fun member inside =>
          (lead ',' _ rfl).append
            (compacts_memberText blank _ member (others member inside _))
      have opened := (lead '\x7b' (depth + 1) rfl).append
        (compacts_memberText blank (depth + 1) member (first (depth + 1)))
      have whole := ((opened.append later).append (gap depth)).append closing
      obtain ⟨key, value⟩ := member
      simpa [print, memberText, Layout.compact] using whole

/-- The same for a text that holds nothing else. -/
theorem withoutGaps_print (depth : Nat) (value : Json) :
    withoutGaps (print layout depth value) = print .compact depth value := by
  have alone := compacts_print blank value depth []
  simpa [withoutGaps] using alone

/-- Different values have different texts. -/
theorem print_injective (depth : Nat) : Function.Injective (print layout depth) := by
  intro first second same
  have sameCompact : print .compact depth first = print .compact depth second := by
    rw [← withoutGaps_print blank, same, withoutGaps_print blank]
  exact (isReadUniquely_print first depth).eq_of_write_eq second sameCompact

end Printing

/-- The compact text is the pretty one without the blanks outside of strings. -/
theorem withoutGaps_pretty (value : Json) : withoutGaps value.pretty = value.compact :=
  withoutGaps_print Layout.isBlank_pretty 0 value

/-- Values are known from their compact texts. -/
theorem compact_injective : Function.Injective compact :=
  fun first => (isReadUniquely_print first 0).eq_of_write_eq

/-- Values are known from their pretty texts. -/
theorem pretty_injective : Function.Injective pretty := print_injective Layout.isBlank_pretty 0

end CommentBlock.Json
