import CommentBlock.Comment.Basic
import CommentBlock.Comment.Source

/-!
# Putting comments together

Comments are put together with `++`, and the empty comment adds nothing on either
side. Inserting tags is the same as putting a comment of these tags behind: of a
repeatable kind the comment then holds its own tags and all inserted ones, of any other
kind the last one. The tags that a comment writes make up all of its tags but the license.
-/

namespace CommentBlock.Comment

/-- Comments are put together slot by slot. -/
theorem append_eq (first second : Comment) : first ++ second = first.append second := rfl

/-- The empty comment adds nothing in front. -/
theorem empty_append (comment : Comment) : empty ++ comment = comment := by
  simp [append_eq, append, empty]

/-- The empty comment adds nothing behind. -/
theorem append_empty (comment : Comment) : comment ++ empty = comment := by
  simp [append_eq, append, empty]

/-- How comments put together are grouped does not matter. -/
theorem append_assoc (first second third : Comment) :
    first ++ second ++ third = first ++ (second ++ third) := by
  simp only [append_eq, append, List.append_assoc, Option.or_assoc]

/-- A tag is inserted by putting the comment of that tag behind. -/
theorem insert_eq (comment : Comment) (tag : Tag) :
    comment.insert tag = comment ++ empty.insert tag := by
  cases tag <;> simp [insert, append_eq, append, empty]

/-- No further tags change nothing. -/
theorem insertAll_nil (comment : Comment) : comment.insertAll [] = comment := rfl

/-- Tags are inserted from the first to the last. -/
theorem insertAll_cons (comment : Comment) (tag : Tag) (rest : List Tag) :
    comment.insertAll (tag :: rest) = (comment.insert tag).insertAll rest := rfl

/-- Tags are inserted in two portions as they are in one. -/
theorem insertAll_append (comment : Comment) (front back : List Tag) :
    comment.insertAll (front ++ back) = (comment.insertAll front).insertAll back :=
  List.foldl_append

/-- Tags are inserted by putting the comment of these tags behind. -/
theorem insertAll_eq (comment : Comment) (tags : List Tag) :
    comment.insertAll tags = comment ++ empty.insertAll tags := by
  induction tags generalizing comment with
  | nil => exact (append_empty comment).symm
  | cons tag rest inductionHypothesis =>
    calc comment.insertAll (tag :: rest)
        = comment.insert tag ++ empty.insertAll rest := inductionHypothesis (comment.insert tag)
      _ = comment ++ (empty.insert tag ++ empty.insertAll rest) := by
        rw [insert_eq, append_assoc]
      _ = comment ++ empty.insertAll (tag :: rest) := by
        rw [insertAll_cons, inductionHypothesis (empty.insert tag)]

/-- Inserting a tag leaves the description alone. -/
theorem description_insert (comment : Comment) (tag : Tag) :
    (comment.insert tag).description = comment.description := by
  cases tag <;> rfl

/-- Inserting tags leaves the description alone. -/
theorem description_insertAll (comment : Comment) (tags : List Tag) :
    (comment.insertAll tags).description = comment.description := by
  induction tags generalizing comment with
  | nil => rfl
  | cons tag rest inductionHypothesis =>
    rw [insertAll_cons, inductionHypothesis, description_insert]

/-- Inserted parameters are added in order. -/
theorem insertAll_params (comment : Comment) (bindings : List Variable) :
    comment.insertAll (bindings.map .param) =
      { comment with params := comment.params ++ bindings } := by
  induction bindings generalizing comment with
  | nil => simp [insertAll_nil]
  | cons binding rest inductionHypothesis =>
    rw [List.map_cons, insertAll_cons, inductionHypothesis]
    simp [insert]

/-- Inserted exceptions are added in order. -/
theorem insertAll_throws (comment : Comment) (outcomes : List Outcome) :
    comment.insertAll (outcomes.map .throws) =
      { comment with throws := comment.throws ++ outcomes } := by
  induction outcomes generalizing comment with
  | nil => simp [insertAll_nil]
  | cons outcome rest inductionHypothesis =>
    rw [List.map_cons, insertAll_cons, inductionHypothesis]
    simp [insert]

/-- The tags of the kind that the comment holds, in their order. -/
def tagsOf (comment : Comment) : Kind → List Tag
  | .var => comment.var.toList.map .var
  | .param => comment.params.map .param
  | .returns => comment.returns.toList.map .returns
  | .throws => comment.throws.map .throws
  | .author => comment.author.toList.map .author
  | .license => comment.license.toList.map .license
  | .package => comment.package.toList.map .package
  | .access => comment.access.toList.map .access

/-- The empty comment holds no tags. -/
theorem tagsOf_empty (kind : Kind) : empty.tagsOf kind = [] := by
  cases kind <;> rfl

/-- An inserted tag stands behind those of its kind if the kind is repeatable and takes
their place otherwise. The other kinds are left alone. -/
theorem tagsOf_insert (comment : Comment) (tag : Tag) (kind : Kind) :
    (comment.insert tag).tagsOf kind =
      if tag.kind = kind then (if kind.isRepeatable then comment.tagsOf kind ++ [tag] else [tag])
      else comment.tagsOf kind := by
  cases tag <;> cases kind <;> simp [insert, tagsOf, Tag.kind, Kind.isRepeatable]

/-- A single slot holds its last tag, if it holds one. -/
theorem getLast?_slot {α : Type} (wrap : α → Tag) (slot : Option α) :
    (slot.toList.map wrap).getLast?.toList = slot.toList.map wrap := by
  cases slot <;> rfl

/-- Of a kind that is not repeatable there is at most one tag. -/
theorem toList_getLast?_tagsOf (comment : Comment) (kind : Kind)
    (single : kind.isRepeatable = false) :
    (comment.tagsOf kind).getLast?.toList = comment.tagsOf kind := by
  cases kind with
  | param | throws => cases single
  | _ => exact getLast?_slot _ _

/-- After any number of insertions a comment holds, of a repeatable kind, the tags that it
held and then the inserted ones; of any other kind it holds the last inserted tag, or the
one that it held if there is none. -/
theorem tagsOf_insertAll (comment : Comment) (tags : List Tag) (kind : Kind) :
    (comment.insertAll tags).tagsOf kind =
      if kind.isRepeatable then comment.tagsOf kind ++ tags.filter fun tag => tag.kind = kind
      else ((tags.filter fun tag => tag.kind = kind).getLast?.or
        (comment.tagsOf kind).getLast?).toList := by
  induction tags generalizing comment with
  | nil =>
    cases single : kind.isRepeatable with
    | true => simp [insertAll_nil]
    | false => simp [insertAll_nil, toList_getLast?_tagsOf comment kind single]
  | cons tag rest inductionHypothesis =>
    rw [insertAll_cons, inductionHypothesis, tagsOf_insert]
    by_cases ofKind : tag.kind = kind
    · cases single : kind.isRepeatable with
      | true => simp [ofKind]
      | false =>
        rw [List.filter_cons_of_pos (by simpa using ofKind), List.getLast?_cons]
        cases (rest.filter fun tag => tag.kind = kind).getLast? <;> simp [ofKind]
    · simp [ofKind]

/-- The comment without its description and its license: what its block states in
tags. -/
def writtenContent (comment : Comment) : Comment :=
  { comment.withoutLicense with description := [] }

/-- The written tags make up the tags of the comment except for its license. -/
theorem insertAll_writtenTags (comment : Comment) :
    empty.insertAll comment.writtenTags = comment.writtenContent := by
  obtain ⟨description, var, returns, package, author, license, access, params, throws⟩ := comment
  simp only [writtenTags, insertAll_append, insertAll_params, insertAll_throws]
  -- What is left are the single tags, each of them there or not.
  cases var <;> cases package <;> cases author <;> cases access <;> cases returns <;> rfl

/-- A description in front of the written tags makes up the comment that has this
description, the tags and no license. -/
theorem describe_writtenContent (comment : Comment) (lines : List Line) :
    ({ description := lines } : Comment) ++ comment.writtenContent =
      { comment.withoutLicense with description := lines } := by
  simp [append_eq, append, writtenContent, withoutLicense]

end CommentBlock.Comment
