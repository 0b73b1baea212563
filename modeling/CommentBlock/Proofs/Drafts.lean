import CommentBlock.Proofs.Readings
import CommentBlock.Proofs.Trimming

/-!
# What is stored of a draft

A tag stores the texts of its draft in their normal form. A required field is trimmed,
and a name loses one dollar sign and is trimmed again. Free text is collapsed: its
words are written with one space between neighbours. A text is a usable value of a
required field exactly when its trimmed form is a word, and this word is stored.

So every tag has a draft from which it is built, namely the one that holds the texts
that the tag stores.
-/

namespace CommentBlock

namespace Text

/-- Whether the text is one word: it has characters, and none of them is blank. -/
def IsWord (text : Text) : Prop := text ≠ [] ∧ ∀ c ∈ text, isBlank c = false

/-- Whether the text is made of words with one space between neighbours. The empty
text is made of none. -/
def IsCollapsed (text : Text) : Prop :=
  ∃ pieces : List Text, (∀ piece ∈ pieces, piece.IsWord) ∧ text = List.intercalate [' '] pieces

/-- The words of the text with one space between neighbours. -/
def collapsed (text : Text) : Text := Phrase.text text.words

/-- A blank within a trimmed text has words on both sides. -/
theorem words_beside_blank (text front back : Text) (c : Char) (blank : isBlank c = true)
    (split : text.trim = front ++ c :: back) : words front ≠ [] ∧ words back ≠ [] := by
  have begins := isBlank_head?_trim text
  have ends := isBlank_getLast?_trim text
  rw [split] at begins ends
  constructor
  · cases front with
    | nil => simp [begins c rfl] at blank
    | cons first rest =>
      have solid : isBlank first = false := begins first rfl
      exact words_ne_nil _ (by simp [startsSolid, solid])
  · intro noWords
    have allBlank : ∀ d ∈ c :: back, isBlank d = true :=
      List.forall_mem_cons.mpr ⟨blank, (words_eq_nil_iff back).mp noWords⟩
    rw [List.getLast?_append_of_ne_nil _ (List.cons_ne_nil c back)] at ends
    have last := List.getLast?_eq_some_getLast (List.cons_ne_nil c back)
    have solid := ends _ last
    rw [allBlank _ (List.getLast_mem _)] at solid
    exact absurd solid (by decide)

/-- A text has a single word exactly when this word is left of it after trimming. -/
theorem words_eq_singleton_iff (text : Text) (word : Word) :
    words text = [word] ↔ text.trim = word.chars := by
  constructor
  · intro single
    rw [← words_trim] at single
    have solid : ∀ c ∈ text.trim, isBlank c = false := by
      intro c member
      cases blank : isBlank c with
      | false => rfl
      | true =>
        obtain ⟨front, back, split⟩ := List.append_of_mem member
        obtain ⟨wordBefore, wordBehind⟩ := words_beside_blank text front back c blank split
        rw [split, words_append_blank front back c blank] at single
        have counted := congrArg List.length single
        have before := List.length_pos_iff.mpr wordBefore
        have behind := List.length_pos_iff.mpr wordBehind
        rw [List.length_append, List.length_singleton] at counted
        omega
    have nonempty : text.trim ≠ [] := by
      intro noText
      rw [noText] at single
      cases single
    rw [words_of_solid text.trim nonempty solid] at single
    exact congrArg Word.chars (List.cons.inj single).1
  · intro trimmed
    rw [← words_trim, trimmed, words_chars]

end Text

/-- A word is one word as a text. -/
theorem Word.isWord_chars (word : Word) : word.chars.IsWord := ⟨word.nonempty, word.solid⟩

/-- A phrase is written as its words with single spaces. -/
theorem Phrase.isCollapsed_text (phrase : Phrase) : phrase.text.IsCollapsed := by
  refine ⟨phrase.map Word.chars, ?_, rfl⟩
  intro piece member
  obtain ⟨word, _, rfl⟩ := List.mem_map.mp member
  exact word.isWord_chars

namespace Field

/-- The word that is read from a text is what is left of it after trimming. -/
theorem read_eq_ok_iff (field : Field) (kind : Kind) (value : Text) (word : Word) :
    field.read kind value = .ok word ↔ value.trim = word.chars := by
  rw [← Text.words_eq_singleton_iff, read]
  split <;> simp_all

/-- The name that is read from a text is what is left of it after trimming, less one
dollar sign and trimmed again. -/
theorem readName_eq_ok_iff (kind : Kind) (value : Text) (word : Word) :
    readName kind value = .ok word ↔ value.trim.withoutDollar.trim = word.chars :=
  read_eq_ok_iff .variableName kind value.trim.withoutDollar word

end Field

/-- A variable is read from its fields in their normal form. -/
theorem Variable.ofFields_eq_ok_iff (kind : Kind) (type name description : Text)
    (binding : Variable) :
    ofFields kind type name description = .ok binding ↔
      type.trim = binding.type.chars ∧ name.trim.withoutDollar.trim = binding.name.chars ∧
        description.words = binding.description := by
  obtain ⟨ownType, ownName, ownDescription⟩ := binding
  rw [← Field.read_eq_ok_iff .type kind, ← Field.readName_eq_ok_iff kind, ofFields]
  cases Field.type.read kind type with
  | error error => simp [bind, Except.bind]
  | ok foundType =>
    cases Field.readName kind name with
    | error error => simp [bind, Except.bind]
    | ok foundName => simp [bind, Except.bind, pure, Except.pure]

/-- An outcome is read from its fields in their normal form. -/
theorem Outcome.ofFields_eq_ok_iff (kind : Kind) (type description : Text) (outcome : Outcome) :
    ofFields kind type description = .ok outcome ↔
      type.trim = outcome.type.chars ∧ description.words = outcome.description := by
  obtain ⟨ownType, ownDescription⟩ := outcome
  rw [← Field.read_eq_ok_iff .type kind, ofFields]
  cases Field.type.read kind type <;> simp [bind, Except.bind, pure, Except.pure]

namespace Draft

/-- The required fields of the draft in their normal form. -/
def requiredTexts : Draft → List Text
  | .var type name _ | .param type name _ => [type.trim, name.trim.withoutDollar.trim]
  | .returns type _ | .throws type _ => [type.trim]
  | .author _ | .license _ | .package _ => []
  | .access level => [level.trim]

/-- The free texts of the draft in their normal form. -/
def freeTexts : Draft → List Text
  | .var _ _ description | .param _ _ description => [description.collapsed]
  | .returns _ description | .throws _ description => [description.collapsed]
  | .author value | .license value | .package value => [value.collapsed]
  | .access _ => []

end Draft

namespace Tag

/-- The texts of the fields that the tag must have: its type, its name without the
dollar sign, its level. -/
def requiredTexts : Tag → List Text
  | .var binding | .param binding => [binding.type.chars, binding.name.chars]
  | .returns outcome | .throws outcome => [outcome.type.chars]
  | .author _ | .license _ | .package _ => []
  | .access level => [level.chars]

/-- The texts of the fields that may be empty: a description or a value. -/
def freeTexts : Tag → List Text
  | .var binding | .param binding => [binding.description.text]
  | .returns outcome | .throws outcome => [outcome.description.text]
  | .author value | .license value | .package value => [value.text]
  | .access _ => []

/-- The fields of a tag are in form. -/
theorem forms_of_fields (tag : Tag) :
    (∀ text ∈ tag.requiredTexts, text.IsWord) ∧ ∀ text ∈ tag.freeTexts, text.IsCollapsed := by
  cases tag <;> simp [requiredTexts, freeTexts, Word.isWord_chars, Phrase.isCollapsed_text]

/-- A tag is built from its own draft. -/
theorem build_draft (tag : Tag) : tag.draft.build = .ok tag := by
  cases tag with
  | var binding | param binding =>
    simp only [draft, draftWith, Draft.build, Variable.ofFields_spelled]
    rfl
  | returns outcome | throws outcome =>
    simp only [draft, draftWith, Draft.build, Outcome.ofFields_words]
    rfl
  | author value | license value | package value =>
    simp only [draft, draftWith, Draft.build, Phrase.words_text]
  | access level =>
    simp only [draft, draftWith, Draft.build, Field.read_chars]
    rfl

end Tag

/-- What is built from the result of a check is built from a checked value. -/
theorem exists_of_map_eq_ok {α : Type} (wrap : α → Tag) (result : Except FieldError α) (tag : Tag)
    (built : wrap <$> result = .ok tag) : ∃ value, result = .ok value ∧ wrap value = tag := by
  cases result with
  | error error => cases built
  | ok value => exact ⟨value, rfl, Except.ok.inj built⟩

/-- A tag that is built stores the texts of its draft in their normal form. -/
theorem Draft.texts_of_build (draft : Draft) (tag : Tag) (built : draft.build = .ok tag) :
    tag.requiredTexts = draft.requiredTexts ∧ tag.freeTexts = draft.freeTexts := by
  cases draft with
  | var type name description | param type name description =>
    obtain ⟨binding, made, rfl⟩ := exists_of_map_eq_ok _ _ tag built
    obtain ⟨sameType, sameName, sameDescription⟩ :=
      (Variable.ofFields_eq_ok_iff _ type name description binding).mp made
    simp [Tag.requiredTexts, Tag.freeTexts, requiredTexts, freeTexts, Text.collapsed, sameType,
      sameName, sameDescription]
  | returns type description | throws type description =>
    obtain ⟨outcome, made, rfl⟩ := exists_of_map_eq_ok _ _ tag built
    obtain ⟨sameType, sameDescription⟩ :=
      (Outcome.ofFields_eq_ok_iff _ type description outcome).mp made
    simp [Tag.requiredTexts, Tag.freeTexts, requiredTexts, freeTexts, Text.collapsed, sameType,
      sameDescription]
  | author value | license value | package value =>
    obtain rfl := Except.ok.inj built
    exact ⟨rfl, rfl⟩
  | access level =>
    obtain ⟨word, made, rfl⟩ := exists_of_map_eq_ok _ _ tag built
    have sameLevel : level.trim = word.chars := (Field.read_eq_ok_iff _ _ level word).mp made
    simp [Tag.requiredTexts, Tag.freeTexts, requiredTexts, freeTexts, sameLevel]

end CommentBlock
