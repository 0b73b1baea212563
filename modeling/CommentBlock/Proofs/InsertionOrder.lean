import CommentBlock.Proofs.Histories

/-!
# The order of insertion

A comment keeps the tags of each kind apart, and inserting a tag concerns its own kind
only: a repeatable kind keeps all of its tags in order, any other kind the last one. So
what a comment holds of a kind after any number of insertions is told by the inserted tags
of this kind, whatever stands between them.

Hence it does not matter how tags of different kinds are mixed, nor where among them the
description is set, as long as the last text is the same. Comments that are equal are
written as the same block.
-/

namespace CommentBlock

/-- Whether the two lists have the same tags of each kind in the same order, so that one
is a rearrangement of the other that moves only tags of different kinds past each other. -/
def Tag.SameByKind (first second : List Tag) : Prop :=
  ∀ kind, first.filter (fun tag => tag.kind = kind) = second.filter fun tag => tag.kind = kind

namespace Comment

section Slots

variable {α : Type} (wrap : α → Tag)

/-- A list of tags is told by the tags in it. -/
theorem eq_of_map_wrap (injective : ∀ a b, wrap a = wrap b → a = b) (first second : List α)
    (same : first.map wrap = second.map wrap) : first = second :=
  List.map_injective_iff.mpr injective same

/-- A single slot is told by the tag in it. -/
theorem eq_of_slot (injective : ∀ a b, wrap a = wrap b → a = b) (first second : Option α)
    (same : first.toList.map wrap = second.toList.map wrap) : first = second := by
  have lists := eq_of_map_wrap wrap injective _ _ same
  cases first <;> cases second <;> simp_all

end Slots

/-- A comment is told by its description and its tags of each kind. -/
theorem eq_of_tagsOf (first second : Comment)
    (sameDescription : first.description = second.description)
    (sameTags : ∀ kind, first.tagsOf kind = second.tagsOf kind) : first = second := by
  have var := eq_of_slot .var (fun _ _ => Tag.var.inj) _ _ (sameTags .var)
  have returns := eq_of_slot .returns (fun _ _ => Tag.returns.inj) _ _ (sameTags .returns)
  have package := eq_of_slot .package (fun _ _ => Tag.package.inj) _ _ (sameTags .package)
  have author := eq_of_slot .author (fun _ _ => Tag.author.inj) _ _ (sameTags .author)
  have license := eq_of_slot .license (fun _ _ => Tag.license.inj) _ _ (sameTags .license)
  have access := eq_of_slot .access (fun _ _ => Tag.access.inj) _ _ (sameTags .access)
  have params := eq_of_map_wrap .param (fun _ _ => Tag.param.inj) _ _ (sameTags .param)
  have throws := eq_of_map_wrap .throws (fun _ _ => Tag.throws.inj) _ _ (sameTags .throws)
  cases first
  cases second
  simp only at sameDescription var returns package author license access params throws
  subst sameDescription var returns package author license access params throws
  rfl

/-- Tags of different kinds may be mixed in any way. -/
theorem insertAll_of_sameByKind (comment : Comment) (first second : List Tag)
    (same : Tag.SameByKind first second) : comment.insertAll first = comment.insertAll second := by
  apply eq_of_tagsOf
  · rw [description_insertAll, description_insertAll]
  · intro kind
    rw [tagsOf_insertAll, tagsOf_insertAll, same kind]

/-- Setting the description commutes with inserting tags. -/
theorem insertAll_describe (comment : Comment) (text : Text) (tags : List Tag) :
    (comment.describe text).insertAll tags = (comment.insertAll tags).describe text := by
  induction tags generalizing comment with
  | nil => rfl
  | cons tag rest inductionHypothesis =>
    have step : (comment.describe text).insert tag = (comment.insert tag).describe text := by
      cases tag <;> rfl
    rw [insertAll_cons, insertAll_cons, step, inductionHypothesis]

end Comment

namespace Edit

/-- The tag that the edit inserts, if it inserts one. -/
def tag? : Edit → Option Tag
  | .insert draft => draft.build.toOption
  | _ => none

/-- The text that the edit sets as the description of the same comment, if it sets one. -/
def text? : Edit → Option Text
  | .describe text => some text
  | _ => none

/-- Whether the edit adds to the comment: it inserts a tag, or is refused, or sets the
description. -/
def adds : Edit → Bool
  | .insert _ | .describe _ => true
  | _ => false

/-- The inserted tags and the last text make up the result of such edits.

Proof: by induction on the edits. A tag is inserted in front of all that follow it, and a
text that is set early is either the last one or set aside by the last one. -/
theorem foldl_step_of_adds (comment : Comment) (edits : List Edit)
    (adding : ∀ edit ∈ edits, edit.adds = true) :
    let changed := comment.insertAll (edits.filterMap tag?)
    edits.foldl step comment = (edits.filterMap text?).getLast?.elim changed changed.describe := by
  induction edits generalizing comment with
  | nil => rfl
  | cons edit rest inductionHypothesis =>
    obtain ⟨first, others⟩ := List.forall_mem_cons.mp adding
    have result := inductionHypothesis (step comment edit) others
    cases edit with
    | insert draft =>
      cases built : draft.build with
      | error error =>
        have unchanged : step comment (.insert draft) = comment := by simp [step, apply, built]
        simpa [List.filterMap_cons, tag?, text?, built, Except.toOption, unchanged] using result
      | ok tag =>
        have inserted := step_insert comment draft tag built
        simpa [List.filterMap_cons, tag?, text?, built, Except.toOption, inserted,
          Comment.insertAll_cons] using result
    | describe text =>
      have described : step comment (.describe text) = comment.describe text := rfl
      rw [List.foldl_cons, result, described, Comment.insertAll_describe]
      simp only [List.filterMap_cons, tag?, text?, List.getLast?_cons]
      cases (rest.filterMap text?).getLast? <;> rfl
    | reset | create text | read mode text | reread mode => cases first

end Edit

namespace Comment

/-- Insertions of tags of different kinds do not depend on each other. The description
stays. Of a repeatable kind a comment holds the tags that it held and then all inserted
ones in order; of any other kind it holds the last inserted one, or the one that it held
if none was inserted.

So the same tags lead to the same comment and the same block in any order that keeps the
tags of each kind in order, and this remains true if the description is set any number of
times in between, as long as the last text is the same. -/
theorem insertion_order (comment : Comment) (tags : List Tag) :
    (comment.insertAll tags).description = comment.description ∧
      (∀ kind, (comment.insertAll tags).tagsOf kind =
        if kind.isRepeatable then comment.tagsOf kind ++ tags.filter fun tag => tag.kind = kind
        else ((tags.filter fun tag => tag.kind = kind).getLast?.or
          (comment.tagsOf kind).getLast?).toList) ∧
      (∀ rearranged, Tag.SameByKind tags rearranged →
        comment.insertAll rearranged = comment.insertAll tags) ∧
      ∀ first second : List Edit, (∀ edit ∈ first ++ second, edit.adds = true) →
        Tag.SameByKind (first.filterMap Edit.tag?) (second.filterMap Edit.tag?) →
          (first.filterMap Edit.text?).getLast? = (second.filterMap Edit.text?).getLast? →
            first.foldl Edit.step comment = second.foldl Edit.step comment ∧
              (first.foldl Edit.step comment).source = (second.foldl Edit.step comment).source := by
  refine ⟨description_insertAll comment tags, tagsOf_insertAll comment tags, ?_, ?_⟩
  · intro rearranged same
    exact (insertAll_of_sameByKind comment tags rearranged same).symm
  · intro first second adding sameTags sameText
    obtain ⟨firstAdds, secondAdds⟩ := List.forall_mem_append.mp adding
    have sameResult : first.foldl Edit.step comment = second.foldl Edit.step comment := by
      rw [Edit.foldl_step_of_adds comment first firstAdds,
        Edit.foldl_step_of_adds comment second secondAdds, sameText,
        insertAll_of_sameByKind comment _ _ sameTags]
    exact ⟨sameResult, congrArg source sameResult⟩

/-- A variable that is replaced, a parameter that is given twice, a refused tag and a first
description. -/
def scatteredEdits : List Edit :=
  [.insert (.var "int".toList "$old".toList []), .describe "Draft".toList,
    .insert (.param "int".toList "$size".toList []), .insert (.access []),
    .insert (.var "int".toList "$new".toList []), .describe "Sizes".toList,
    .insert (.param "int".toList "$size".toList [])]

/-- The same tags, kind by kind, and only the last description. -/
def sortedEdits : List Edit :=
  [.describe "Sizes".toList, .insert (.param "int".toList "$size".toList []),
    .insert (.param "int".toList "$size".toList []),
    .insert (.var "int".toList "$old".toList []), .insert (.var "int".toList "$new".toList [])]

/-- Both lists of edits lead to the same comment, which holds the parameter twice. -/
theorem insertion_order_of_scatteredEdits :
    scatteredEdits.foldl Edit.step empty = sortedEdits.foldl Edit.step empty ∧
      (scatteredEdits.foldl Edit.step empty).source = (sortedEdits.foldl Edit.step empty).source ∧
      (empty.insertAll (sortedEdits.filterMap Edit.tag?)).tagsOf .param =
        (sortedEdits.filterMap Edit.tag?).take 2 := by
  have adding : ∀ edit ∈ scatteredEdits ++ sortedEdits, edit.adds = true := by decide
  have sameTags : Tag.SameByKind (scatteredEdits.filterMap Edit.tag?)
      (sortedEdits.filterMap Edit.tag?) := by
    intro kind
    cases kind <;> rfl
  have sameText : (scatteredEdits.filterMap Edit.text?).getLast? =
      (sortedEdits.filterMap Edit.text?).getLast? := by
    simp [scatteredEdits, sortedEdits, List.filterMap_cons, Edit.text?]
  obtain ⟨-, held, -, combined⟩ := insertion_order empty (sortedEdits.filterMap Edit.tag?)
  obtain ⟨sameComment, sameSource⟩ := combined _ _ adding sameTags sameText
  exact ⟨sameComment, sameSource, held .param⟩

end Comment

end CommentBlock
