import CommentBlock.Json.Printer
import CommentBlock.Proofs.PrefixCodes

/-!
# Reading the text of JSON values

The compact text of a value is known from the front of any text that begins with it. Escaped
characters are a prefix code, and only the closing quote of a string begins with a quote; the
first character of a value tells its form, and no value begins like a comma or a closing
bracket. So wherever a string, an array or an object ends or goes on, one character decides.

In any layout that puts only blanks between tokens, the compact text is what is left when
the blanks outside of strings are dropped. Different values therefore have different texts
in every such layout.
-/

namespace CommentBlock.Json

/-- A property of all values is shown for each form of value, given that the items and the
values of the members have it. -/
theorem induct {motive : Json → Prop} (null : motive .null)
    (string : ∀ value, motive (.string value))
    (array : ∀ items, (∀ item ∈ items, motive item) → motive (.array items))
    (object : ∀ members, (∀ member ∈ members, motive member.2) → motive (.object members)) :
    ∀ value, motive value
  | .null => null
  | .string value => string value
  | .array items => array items fun item _ => induct null string array object item
  | .object members => object members fun member _ => induct null string array object member.2
  termination_by value => sizeOf value
  decreasing_by
    · have smaller := List.sizeOf_lt_of_mem ‹item ∈ items›
      simp only [Json.array.sizeOf_spec]
      omega
    · have smaller := List.sizeOf_lt_of_mem ‹member ∈ members›
      cases member
      simp only [Json.object.sizeOf_spec, Prod.mk.sizeOf_spec] at *
      omega

/-- The escapes of two characters: the letter behind the backslash and what it stands for. -/
def shortEscapes : List (Char × Char) :=
  [('"', '"'), ('\\', '\\'), ('b', '\x08'), ('f', '\x0C'), ('n', '\n'), ('r', '\r'), ('t', '\t')]

/-- A character in a string is written with a letter, with digits or as it is, the last only
if it is neither a quote nor a backslash. -/
theorem escapedChar_cases (c : Char) :
    (∃ letter, (letter, c) ∈ shortEscapes ∧ escapedChar c = ['\\', letter]) ∨
      (c.toNat < 0x20 ∧ escapedChar c =
        ['\\', 'u', '0', '0', Nat.digitChar (c.toNat / 16), Nat.digitChar (c.toNat % 16)]) ∨
      (c ≠ '"' ∧ c ≠ '\\' ∧ escapedChar c = [c]) := by
  unfold escapedChar
  split
  case h_8 notQuote notBackslash _ _ _ _ _ =>
    split
    · exact .inr (.inl ⟨‹_›, rfl⟩)
    · exact .inr (.inr ⟨notQuote, notBackslash, rfl⟩)
  all_goals exact .inl ⟨_, by decide, rfl⟩

/-- The number of a hexadecimal digit in lower case. -/
def hexValue (digit : Char) : Nat :=
  if digit.isDigit then digit.toNat - '0'.toNat else digit.toNat - 'a'.toNat + 10

/-- A digit is read back as its number. -/
theorem hexValue_digitChar : ∀ number < 16, hexValue (Nat.digitChar number) = number := by decide

/-- Takes one written character from the front of a text. -/
def unescape : Text → Option (Char × Text)
  | '\\' :: 'u' :: '0' :: '0' :: high :: low :: rest =>
    some (Char.ofNat (16 * hexValue high + hexValue low), rest)
  | '\\' :: letter :: rest => (shortEscapes.lookup letter).map fun c => (c, rest)
  | c :: rest => some (c, rest)
  | [] => none

/-- A written character is taken from the front whatever follows it. -/
theorem unescape_escapedChar (c : Char) (rest : Text) :
    unescape (escapedChar c ++ rest) = some (c, rest) := by
  rcases escapedChar_cases c with ⟨letter, short, written⟩ | ⟨low, written⟩ | ⟨_, differs, written⟩
  · have known :
        ∀ pair ∈ shortEscapes, pair.1 ≠ 'u' ∧ shortEscapes.lookup pair.1 = some pair.2 := by
      decide
    obtain ⟨notU, found⟩ := known _ short
    rw [written]
    simp [unescape, notU, found]
  · have high := hexValue_digitChar (c.toNat / 16) (by omega)
    have low := hexValue_digitChar (c.toNat % 16) (by omega)
    have together : 16 * (c.toNat / 16) + c.toNat % 16 = c.toNat := Nat.div_add_mod c.toNat 16
    rw [written]
    simp [unescape, high, low, together]
  · rw [written]
    simp [unescape, differs]

/-- Escaped characters are a prefix code. -/
theorem isPrefixCode_escapedChar : IsPrefixCode escapedChar :=
  isPrefixCode_of_reader unescape unescape_escapedChar

/-- No written character begins with a quote. -/
theorem escapedChar_opensApart : OpensApartFrom escapedChar '"' := by
  intro c
  rcases escapedChar_cases c with ⟨letter, _, written⟩ | ⟨_, written⟩ | ⟨differs, _, written⟩
  · exact ⟨'\\', by rw [written]; rfl, by decide⟩
  · exact ⟨'\\', by rw [written]; rfl, by decide⟩
  · exact ⟨c, by rw [written]; rfl, differs⟩

/-- A string ends at the first quote that is not part of a written character. -/
theorem isPrefixCode_stringLiteral : IsPrefixCode stringLiteral := by
  intro value
  have characters : ∀ c ∈ value, IsReadUniquely escapedChar c :=
    fun c _ => isPrefixCode_escapedChar c
  exact (isReadUniquely_list escapedChar_opensApart value characters).behind ['"']

/-- The first character of the text of a value. -/
def opening : Json → Char
  | .null => 'n'
  | .string _ => '"'
  | .array _ => '['
  | .object _ => '\x7b'

/-- The first character tells the form of the value in every layout. -/
theorem head?_print (layout : Layout) (depth : Nat) (value : Json) :
    (print layout depth value).head? = some value.opening := by
  unfold print
  split <;> rfl

/-- No value begins with a closing bracket. -/
theorem print_opensApart (layout : Layout) (depth : Nat) (stop : Char)
    (closing : stop = ']' ∨ stop = '\x7d') : OpensApartFrom (print layout depth) stop := by
  intro value
  refine ⟨value.opening, head?_print layout depth value, ?_⟩
  rcases closing with same | same <;> cases value <;> simp [opening, same]

/-- Texts that begin with values of different forms differ. -/
theorem opening_eq_of_print_append (layout : Layout) (depth : Nat) (first second : Json)
    (rest otherRest : Text)
    (same : print layout depth first ++ rest = print layout depth second ++ otherRest) :
    first.opening = second.opening := by
  have heads := congrArg List.head? same
  simpa [List.head?_append, head?_print] using heads

section Members

variable (layout : Layout) (depth : Nat)

/-- The text of one member of an object. -/
def memberText (member : Text × Json) : Text :=
  stringLiteral member.1 ++ ':' :: layout.afterColon ++ print layout depth member.2

/-- Every item after the first has a comma in front. -/
theorem printItems_eq_flatMap (items : List Json) :
    printItems layout depth items =
      items.flatMap fun item => ',' :: layout.beforeItem depth ++ print layout depth item := by
  induction items with
  | nil => rfl
  | cons item rest inductionHypothesis => simp [printItems, inductionHypothesis]

/-- Every member after the first has a comma in front. -/
theorem printMembers_eq_flatMap (members : List (Text × Json)) :
    printMembers layout depth members =
      members.flatMap fun member =>
        ',' :: layout.beforeItem depth ++ memberText layout depth member := by
  induction members with
  | nil => rfl
  | cons member rest inductionHypothesis =>
    obtain ⟨key, value⟩ := member
    simp [printMembers, memberText, inductionHypothesis]

/-- A member begins with the quote of its key. -/
theorem memberText_opensApart : OpensApartFrom (memberText layout depth) '\x7d' := by
  intro member
  exact ⟨'"', rfl, by decide⟩

end Members

section Compact

variable (depth : Nat)

/-- The compact text of an array has commas between the items. -/
theorem print_compact_array (items : List Json) :
    print .compact depth (.array items) =
      ['['] ++ (List.intercalate [','] (items.map (print .compact (depth + 1))) ++ [']']) := by
  cases items with
  | nil => rfl
  | cons item rest =>
    rw [intercalate_map_cons, print, printItems_eq_flatMap]
    simp [Layout.compact]

/-- The compact text of an object has commas between the members. -/
theorem print_compact_object (members : List (Text × Json)) :
    print .compact depth (.object members) =
      ['\x7b'] ++
        (List.intercalate [','] (members.map (memberText .compact (depth + 1))) ++ ['\x7d']) := by
  cases members with
  | nil => rfl
  | cons member rest =>
    obtain ⟨key, value⟩ := member
    rw [intercalate_map_cons, print, printMembers_eq_flatMap]
    simp [memberText, Layout.compact]

end Compact

/-- Values are known from their compact texts at any depth.

Proof: by induction on the value, against any other value. Both have the same form because
their first characters agree. What an array or an object holds is separated by commas up to a
closing bracket, and its parts are known by induction. -/
theorem isReadUniquely_print (value : Json) :
    ∀ depth, IsReadUniquely (print .compact depth) value := by
  induction value using induct with
  | null =>
    intro depth other rest otherRest same
    have sameForm := opening_eq_of_print_append _ _ _ _ _ _ same
    cases other with
    | null => exact ⟨rfl, List.append_cancel_left same⟩
    | string _ | array _ | object _ => simp [opening] at sameForm
  | string value =>
    intro depth other rest otherRest same
    have sameForm := opening_eq_of_print_append _ _ _ _ _ _ same
    cases other with
    | string otherValue =>
      obtain ⟨sameValue, sameRest⟩ := isPrefixCode_stringLiteral value _ _ _ same
      exact ⟨by rw [sameValue], sameRest⟩
    | null | array _ | object _ => simp [opening] at sameForm
  | array items inductionHypothesis =>
    intro depth other rest otherRest same
    have sameForm := opening_eq_of_print_append _ _ _ _ _ _ same
    cases other with
    | array others =>
      rw [print_compact_array, print_compact_array] at same
      obtain ⟨sameItems, sameRest⟩ :=
        (isReadUniquely_separated (by decide) (print_opensApart _ _ _ (.inl rfl)) items
          fun item inside => inductionHypothesis item inside (depth + 1)).behind ['['] _ _ _ same
      exact ⟨by rw [sameItems], sameRest⟩
    | null | string _ | object _ => simp [opening] at sameForm
  | object members inductionHypothesis =>
    intro depth other rest otherRest same
    have sameForm := opening_eq_of_print_append _ _ _ _ _ _ same
    have known : ∀ member ∈ members, IsReadUniquely (memberText .compact (depth + 1)) member := by
      intro member inside
      exact (isPrefixCode_stringLiteral member.1).pair
        (inductionHypothesis member inside (depth + 1)) [':']
    cases other with
    | object others =>
      rw [print_compact_object, print_compact_object] at same
      obtain ⟨sameMembers, sameRest⟩ :=
        (isReadUniquely_separated (by decide) (memberText_opensApart _ _) members known).behind
          ['\x7b'] _ _ _ same
      exact ⟨by rw [sameMembers], sameRest⟩
    | null | string _ | array _ => simp [opening] at sameForm

end CommentBlock.Json
