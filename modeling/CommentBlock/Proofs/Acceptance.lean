import CommentBlock.Proofs.Drafts
import CommentBlock.Proofs.Faults

/-!
# Which drafts make tags

A draft makes a tag exactly if each of its required fields is one word in normal form. If
not, the first field that is none decides the error, a type before a name: the field is
missing if its normal form is empty, and otherwise it has several words, which the error
shows in normal form.

A tag is made again from what it says of itself, as long as its name is spelled with the
dollar sign. From the bare name it is made again exactly if that does not begin with a
dollar sign of its own, since the first one is dropped whatever follows it.
-/

namespace CommentBlock

/-- A required field with the text that is supplied for it, in normal form. -/
structure FilledField where
  field : Field
  text : Text

/-- The required fields of the draft in the order in which they are judged. -/
def Draft.filledFields (draft : Draft) : List FilledField :=
  List.zipWith FilledField.mk draft.kind.requiredFields draft.requiredTexts

/-- The variable of a tag that has one. -/
def Tag.binding? : Tag → Option Variable
  | .var binding | .param binding => some binding
  | _ => none

namespace FilledField

/-- What is wrong with the text if it is not a word. -/
def error (filled : FilledField) (kind : Kind) : FieldError :=
  if filled.text.isEmpty then .missing kind filled.field
  else .severalWords kind filled.field filled.text

/-- Whether the error is that of the first of the fields that is not a word. -/
def IsFirstError (kind : Kind) (fields : List FilledField) (error : FieldError) : Prop :=
  ∃ before bad after, fields = before ++ bad :: after ∧ (∀ good ∈ before, good.text.IsWord) ∧
    ¬ bad.text.IsWord ∧ error = bad.error kind

/-- Without fields there is no error. -/
theorem not_isFirstError_nil (kind : Kind) (error : FieldError) : ¬ IsFirstError kind [] error := by
  rintro ⟨before, bad, after, split, _⟩
  simp at split

/-- The error is that of the first field, or this one is a word and the error is among the
others. -/
theorem isFirstError_cons_iff (kind : Kind) (first : FilledField) (rest : List FilledField)
    (error : FieldError) :
    IsFirstError kind (first :: rest) error ↔
      ¬ first.text.IsWord ∧ error = first.error kind ∨
        first.text.IsWord ∧ IsFirstError kind rest error := by
  constructor
  · rintro ⟨before, bad, after, split, good, noWord, same⟩
    cases before with
    | nil =>
      obtain ⟨rfl, _⟩ := List.cons.inj split
      exact .inl ⟨noWord, same⟩
    | cons other more =>
      obtain ⟨rfl, splitRest⟩ := List.cons.inj split
      obtain ⟨word, goodMore⟩ := List.forall_mem_cons.mp good
      exact .inr ⟨word, more, bad, after, splitRest, goodMore, noWord, same⟩
  · rintro (⟨noWord, same⟩ | ⟨word, before, bad, after, rfl, good, noWord, same⟩)
    · exact ⟨[], first, rest, rfl, by simp, noWord, same⟩
    · exact ⟨first :: before, bad, after, rfl, List.forall_mem_cons.mpr ⟨word, good⟩, noWord, same⟩

/-- All fields are words exactly if there is no error. -/
theorem forall_isWord_iff (kind : Kind) (fields : List FilledField) :
    (∀ filled ∈ fields, filled.text.IsWord) ↔ ∀ error, ¬ IsFirstError kind fields error := by
  induction fields with
  | nil => simp [not_isFirstError_nil]
  | cons first rest inductionHypothesis =>
    simp only [List.forall_mem_cons, inductionHypothesis, isFirstError_cons_iff, not_or]
    constructor
    · rintro ⟨word, noError⟩ error
      exact ⟨fun bad => bad.1 word, fun later => noError error later.2⟩
    · intro noError
      have word : first.text.IsWord := by
        by_contra noWord
        exact (noError (first.error kind)).1 ⟨noWord, rfl⟩
      exact ⟨word, fun error later => (noError error).2 ⟨word, later⟩⟩

end FilledField

/-- What is left of a text after trimming is a word exactly if the text has a single one. -/
theorem Text.isWord_trim_iff (text : Text) :
    text.trim.IsWord ↔ ∃ word, text.words = [word] := by
  constructor
  · rintro ⟨nonempty, solid⟩
    exact ⟨⟨text.trim, nonempty, solid⟩, (words_eq_singleton_iff text _).mpr rfl⟩
  · rintro ⟨word, single⟩
    rw [(words_eq_singleton_iff text word).mp single]
    exact word.isWord_chars

namespace Field

/-- A text is refused for a field exactly if it is no word after trimming. -/
theorem read_eq_error_iff (field : Field) (kind : Kind) (value : Text) (error : FieldError) :
    field.read kind value = .error error ↔
      ¬ value.trim.IsWord ∧ error = FilledField.error ⟨field, value.trim⟩ kind := by
  rw [Text.isWord_trim_iff, read, FilledField.error, @eq_comm _ error]
  have noText := Text.trim_eq_nil_iff value
  cases words : value.words with
  | nil =>
    rw [noText.mpr words]
    simp
  | cons first rest =>
    have filled : value.trim.isEmpty = false := by
      rw [List.isEmpty_eq_false_iff, Ne, noText, words]
      exact List.cons_ne_nil first rest
    rw [filled]
    cases rest <;> simp

/-- A text is refused for a name exactly if it is no word after trimming, without one dollar
sign and after trimming again. -/
theorem readName_eq_error_iff (kind : Kind) (value : Text) (error : FieldError) :
    readName kind value = .error error ↔
      ¬ value.trim.withoutDollar.trim.IsWord ∧
        error = FilledField.error ⟨.variableName, value.trim.withoutDollar.trim⟩ kind :=
  read_eq_error_iff .variableName kind value.trim.withoutDollar error

end Field

/-- A variable is refused because of its type or, if that is a word, because of its name. -/
theorem Variable.ofFields_eq_error_iff (kind : Kind) (type name description : Text)
    (error : FieldError) :
    ofFields kind type name description = .error error ↔
      FilledField.IsFirstError kind
        [⟨.type, type.trim⟩, ⟨.variableName, name.trim.withoutDollar.trim⟩] error := by
  have noOther : ¬ FilledField.IsFirstError kind [] error :=
    FilledField.not_isFirstError_nil kind error
  rw [FilledField.isFirstError_cons_iff, FilledField.isFirstError_cons_iff, ofFields]
  simp only [noOther, and_false, or_false]
  rw [← Field.readName_eq_error_iff]
  cases typeRead : Field.type.read kind type with
  | error refusal =>
    obtain ⟨noWord, same⟩ := (Field.read_eq_error_iff .type kind type refusal).mp typeRead
    simp [bind, Except.bind, noWord, same, eq_comm]
  | ok word =>
    have isWord : type.trim.IsWord := by
      rw [(Field.read_eq_ok_iff .type kind type word).mp typeRead]
      exact word.isWord_chars
    cases Field.readName kind name <;> simp [bind, Except.bind, pure, Except.pure, isWord]

/-- An outcome is refused because of its type. -/
theorem Outcome.ofFields_eq_error_iff (kind : Kind) (type description : Text)
    (error : FieldError) :
    ofFields kind type description = .error error ↔
      FilledField.IsFirstError kind [⟨.type, type.trim⟩] error := by
  have noOther : ¬ FilledField.IsFirstError kind [] error :=
    FilledField.not_isFirstError_nil kind error
  rw [FilledField.isFirstError_cons_iff, ofFields]
  simp only [noOther, and_false, or_false]
  rw [← Field.read_eq_error_iff]
  cases Field.type.read kind type <;> simp [bind, Except.bind, pure, Except.pure]

/-- What wraps a checked value is refused as the value is. -/
theorem map_eq_error_iff {α : Type} (wrap : α → Tag) (result : Except FieldError α)
    (error : FieldError) : wrap <$> result = .error error ↔ result = .error error := by
  cases result <;> simp [Functor.map, Except.map]

namespace Draft

/-- A draft is refused because of the first of its required fields that is no word. -/
theorem build_eq_error_iff (draft : Draft) (error : FieldError) :
    draft.build = .error error ↔
      FilledField.IsFirstError draft.kind draft.filledFields error := by
  cases draft with
  | var type name description | param type name description =>
    exact (map_eq_error_iff _ _ error).trans
      (Variable.ofFields_eq_error_iff _ type name description error)
  | returns type description | throws type description =>
    exact (map_eq_error_iff _ _ error).trans
      (Outcome.ofFields_eq_error_iff _ type description error)
  | author value | license value | package value =>
    have noError := FilledField.not_isFirstError_nil
    simp [build, filledFields, requiredTexts, noError]
  | access level =>
    have noOther : ¬ FilledField.IsFirstError .access [] error :=
      FilledField.not_isFirstError_nil .access error
    refine (map_eq_error_iff _ _ error).trans ?_
    rw [Field.read_eq_error_iff]
    change _ ↔ FilledField.IsFirstError .access [⟨.level, level.trim⟩] error
    rw [FilledField.isFirstError_cons_iff]
    simp only [noOther, and_false, or_false]

/-- A draft makes a tag exactly if all of its required fields are words. -/
theorem exists_build_iff (draft : Draft) :
    (∃ tag, draft.build = .ok tag) ↔ ∀ filled ∈ draft.filledFields, filled.text.IsWord := by
  rw [FilledField.forall_isWord_iff draft.kind]
  simp only [← build_eq_error_iff]
  cases draft.build <;> simp

end Draft

/-- A word that is supplied as a name is read as it is exactly if it does not begin with a
dollar sign. -/
theorem Field.readName_eq_self_iff (kind : Kind) (name : Word) :
    readName kind name.chars = .ok name ↔ name.chars.head? ≠ some '$' := by
  rw [readName_eq_ok_iff, Text.trim_of_solid _ name.solid]
  obtain ⟨chars, nonempty, solid⟩ := name
  obtain ⟨c, rest, rfl⟩ := List.exists_cons_of_ne_nil nonempty
  by_cases dollar : c = '$'
  · subst dollar
    have solidRest : ∀ d ∈ rest, isBlank d = false := (List.forall_mem_cons.mp solid).2
    -- The name would be as long as what is left without its first character.
    simp [Text.withoutDollar, Text.trim_of_solid rest solidRest]
  · have unchanged : Text.withoutDollar (c :: rest) = c :: rest := by
      simp [Text.withoutDollar, dollar]
    simp [unchanged, Text.trim_of_solid _ solid, dollar]

/-- A variable is made again from its bare name exactly if that does not begin with a dollar
sign. -/
theorem Variable.ofFields_name_iff (kind : Kind) (binding : Variable) :
    ofFields kind binding.type.chars binding.name.chars binding.description.text = .ok binding ↔
      binding.name.chars.head? ≠ some '$' := by
  rw [← Field.readName_eq_self_iff kind, Field.readName_eq_ok_iff, ofFields_eq_ok_iff,
    Text.trim_of_solid _ binding.type.solid, Phrase.words_text]
  simp only [true_and, and_true]

/-- What wraps a checked value wraps this one exactly if it is the checked value. -/
theorem map_eq_ok_iff {α : Type} (wrap : α → Tag) (injective : Function.Injective wrap)
    (result : Except FieldError α) (value : α) :
    wrap <$> result = .ok (wrap value) ↔ result = .ok value := by
  cases result <;> simp [Functor.map, Except.map, injective.eq_iff]

namespace Tag

/-- How names are spelled makes no difference to a tag without one. -/
theorem draftWith_of_nameless (tag : Tag) (nameless : tag.binding? = none)
    (spelling : Variable → Word) : tag.draftWith spelling = tag.draft := by
  cases tag with
  | var binding | param binding => cases nameless
  | _ => rfl

/-- A tag is made again from its accessors, with its name in place of the spelled one, exactly
if it has no name that begins with a dollar sign. -/
theorem build_draftWith_name_iff (tag : Tag) :
    (tag.draftWith Variable.name).build = .ok tag ↔
      ∀ binding ∈ tag.binding?, binding.name.chars.head? ≠ some '$' := by
  cases tag with
  | var binding =>
    have made := map_eq_ok_iff .var (fun _ _ => var.inj)
      (Variable.ofFields .var binding.type.chars binding.name.chars binding.description.text)
      binding
    simp only [draftWith, Draft.build, made, binding.ofFields_name_iff, binding?,
      Option.mem_some_iff, forall_eq']
  | param binding =>
    have made := map_eq_ok_iff .param (fun _ _ => param.inj)
      (Variable.ofFields .param binding.type.chars binding.name.chars binding.description.text)
      binding
    simp only [draftWith, Draft.build, made, binding.ofFields_name_iff, binding?,
      Option.mem_some_iff, forall_eq']
  | returns outcome | throws outcome | author value | license value | package value
  | access level =>
    rw [draftWith_of_nameless _ rfl]
    exact iff_of_true (build_draft _) (by simp [binding?])

end Tag

/-- A draft makes a tag exactly if each required field is one word in normal form: a trimmed
type or level, and a name that is trimmed, loses one dollar sign and is trimmed again. Drafts
without required fields always make one. Otherwise the first field that is no word, the type
before the name, is reported as missing if it is empty in normal form, and with this form if
it is not.

A tag is made again from its own fields if its name is spelled with the dollar sign. With the
name as it is stored it is made again exactly if that does not begin with a dollar sign. -/
theorem Draft.build_from_words :
    (∀ draft : Draft,
      ((∃ tag, draft.build = .ok tag) ↔ ∀ filled ∈ draft.filledFields, filled.text.IsWord) ∧
        ∀ error, draft.build = .error error ↔
          ∃ before bad after, draft.filledFields = before ++ bad :: after ∧
            (∀ good ∈ before, good.text.IsWord) ∧ ¬ bad.text.IsWord ∧
              error = if bad.text.isEmpty then .missing draft.kind bad.field
                else .severalWords draft.kind bad.field bad.text) ∧
      ∀ tag : Tag, tag.draft.build = .ok tag ∧
        ((tag.draftWith Variable.name).build = .ok tag ↔
          ∀ binding ∈ tag.binding?, binding.name.chars.head? ≠ some '$') := by
  constructor
  · intro draft
    exact ⟨draft.exists_build_iff, draft.build_eq_error_iff⟩
  · intro tag
    exact ⟨tag.build_draft, tag.build_draftWith_name_iff⟩

end CommentBlock
