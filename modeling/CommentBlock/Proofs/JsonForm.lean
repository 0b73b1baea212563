import CommentBlock.Comment.Json
import CommentBlock.Proofs.JsonLayouts
import CommentBlock.Proofs.Lines
import CommentBlock.Proofs.Readings

/-!
# The JSON form loses nothing

Words are known from their characters, phrases and description lines from their texts. The
fields of a tag are members in a fixed order, a missing tag is null and a tag is not, and the
members of a comment stand for its parts in order. So comments are known from their JSON
values, and hence from their texts, compact or pretty.

The fields alone do not tell tags of different kinds apart: a variable and a parameter have
the same members, as have an outcome and an exception, or an author, a license and a package.
Outside of a comment the kind is therefore a member too, and tags are known from their JSON
values as well.
-/

namespace CommentBlock

/-- Different words have different characters. -/
theorem Word.chars_injective : Function.Injective Word.chars := by
  intro first second same
  have sameWords : [first] = [second] := by
    rw [← Text.words_chars first, ← Text.words_chars second, same]
  exact List.singleton_inj.mp sameWords

/-- Different phrases have different texts. -/
theorem Phrase.text_injective : Function.Injective Phrase.text := by
  intro first second same
  rw [← first.words_text, ← second.words_text, same]

/-- Different kinds have different names. -/
theorem Kind.name_injective : Function.Injective Kind.name := by
  intro first second same
  have sameKind : some first = some second := by
    rw [← first.ofName?_name, ← second.ofName?_name, same]
  exact Option.some.inj sameKind

/-- A variable is known from its fields. -/
theorem Variable.members_injective : Function.Injective Variable.members := by
  intro first second same
  obtain ⟨type, name, description⟩ := first
  obtain ⟨otherType, otherName, otherDescription⟩ := second
  simp only [members, List.cons.injEq, Prod.mk.injEq, Json.string.injEq, true_and,
    and_true] at same
  obtain ⟨sameType, sameName, sameDescription⟩ := same
  rw [Word.chars_injective sameType, Word.chars_injective sameName,
    Phrase.text_injective sameDescription]

/-- An outcome is known from its fields. -/
theorem Outcome.members_injective : Function.Injective Outcome.members := by
  intro first second same
  obtain ⟨type, description⟩ := first
  obtain ⟨otherType, otherDescription⟩ := second
  simp only [members, List.cons.injEq, Prod.mk.injEq, Json.string.injEq, true_and,
    and_true] at same
  obtain ⟨sameType, sameDescription⟩ := same
  rw [Word.chars_injective sameType, Phrase.text_injective sameDescription]

/-- A phrase is known from its only field. -/
theorem Phrase.members_injective : Function.Injective Phrase.members := by
  intro first second same
  simp only [members, List.cons.injEq, Prod.mk.injEq, Json.string.injEq, true_and,
    and_true] at same
  exact text_injective same

/-- An access level is known from its only field. -/
theorem Word.members_injective : Function.Injective Word.members := by
  intro first second same
  simp only [members, List.cons.injEq, Prod.mk.injEq, Json.string.injEq, true_and,
    and_true] at same
  exact chars_injective same

section Slots

variable {α : Type} {members : α → List (Text × Json)} (injective : Function.Injective members)

include injective

/-- A slot for one tag is known from what it is written as, null if it is empty. -/
theorem Json.eq_of_ofOption (first second : Option α)
    (same : Json.ofOption (first.map fun value => .object (members value)) =
      Json.ofOption (second.map fun value => .object (members value))) : first = second := by
  cases first <;> cases second <;> simp_all [ofOption, injective.eq_iff]

/-- A list of tags is known from the objects for its items. -/
theorem Json.eq_of_objects (first second : List α)
    (same : (first.map fun value => Json.object (members value)) =
      second.map fun value => Json.object (members value)) : first = second := by
  have objectInjective : Function.Injective fun value => Json.object (members value) :=
    fun _ _ same => injective (Json.object.inj same)
  exact objectInjective.list_map same

end Slots

/-- Comments are known from their JSON values. -/
theorem Comment.toJson_injective : Function.Injective Comment.toJson := by
  intro first second same
  have lineInjective : Function.Injective fun line : Line => Json.string line.chars :=
    fun _ _ same => Line.eq_of_chars_eq _ _ (Json.string.inj same)
  cases first
  cases second
  simp only [toJson, Json.object.injEq, List.cons.injEq, Prod.mk.injEq, Json.array.injEq,
    true_and, and_true] at same
  obtain ⟨description, var, returns, package, author, license, access, params, throws⟩ := same
  rw [Comment.mk.injEq]
  exact ⟨lineInjective.list_map description,
    Json.eq_of_ofOption Variable.members_injective _ _ var,
    Json.eq_of_ofOption Outcome.members_injective _ _ returns,
    Json.eq_of_ofOption Phrase.members_injective _ _ package,
    Json.eq_of_ofOption Phrase.members_injective _ _ author,
    Json.eq_of_ofOption Phrase.members_injective _ _ license,
    Json.eq_of_ofOption Word.members_injective _ _ access,
    Json.eq_of_objects Variable.members_injective _ _ params,
    Json.eq_of_objects Outcome.members_injective _ _ throws⟩

/-- Tags of one kind are known from their fields. -/
theorem Tag.eq_of_members (first second : Tag) (sameKind : first.kind = second.kind)
    (sameMembers : first.members = second.members) : first = second := by
  cases first <;> cases second <;> cases sameKind
  case var.var | param.param => exact congrArg _ (Variable.members_injective sameMembers)
  case returns.returns | throws.throws => exact congrArg _ (Outcome.members_injective sameMembers)
  case access.access => exact congrArg _ (Word.members_injective sameMembers)
  all_goals exact congrArg _ (Phrase.members_injective sameMembers)

/-- Tags are known from their JSON values, whatever their kinds. -/
theorem Tag.toJson_injective : Function.Injective Tag.toJson := by
  intro first second same
  simp only [toJson, Json.object.injEq, List.cons.injEq, Prod.mk.injEq, Json.string.injEq,
    true_and] at same
  exact eq_of_members first second (Kind.name_injective same.1) same.2

/-- Comments are equal exactly when their compact texts are, and exactly when their pretty
texts are. The compact text of a comment is its pretty text without the blanks outside of
strings. Tags are equal exactly when either of their texts are, also if they are of different
kinds with the same fields. -/
theorem Comment.json_tells_all :
    (∀ first second : Comment,
      (first.toJson.compact = second.toJson.compact ↔ first = second) ∧
        (first.toJson.pretty = second.toJson.pretty ↔ first = second)) ∧
      (∀ comment : Comment, Json.withoutGaps comment.toJson.pretty = comment.toJson.compact) ∧
      ∀ first second : Tag,
        (first.toJson.compact = second.toJson.compact ↔ first = second) ∧
          (first.toJson.pretty = second.toJson.pretty ↔ first = second) := by
  have compactComment := Json.compact_injective.comp Comment.toJson_injective
  have prettyComment := Json.pretty_injective.comp Comment.toJson_injective
  have compactTag := Json.compact_injective.comp Tag.toJson_injective
  have prettyTag := Json.pretty_injective.comp Tag.toJson_injective
  refine ⟨?_, ?_, ?_⟩
  · intro first second
    exact ⟨compactComment.eq_iff, prettyComment.eq_iff⟩
  · intro comment
    exact Json.withoutGaps_pretty comment.toJson
  · intro first second
    exact ⟨compactTag.eq_iff, prettyTag.eq_iff⟩

/-- An author and a package with the same fields differ in their kinds. -/
example : (Tag.author []).members = (Tag.package []).members ∧
    (Tag.author []).toJson.compact ≠ (Tag.package []).toJson.compact := by
  exact ⟨rfl, by decide⟩

end CommentBlock
