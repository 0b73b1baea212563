import CommentBlock.Comment.Edit
import CommentBlock.Proofs.Drafts
import CommentBlock.Proofs.Prose

/-!
# Histories of edits

Whatever texts are passed to the edits of a history, what the comment stores is in
form: a description without line ends, required fields that are one word each, and
free text as words with one space between neighbours. More can not be said of all
histories, since each comment of this form has a history that leads to it.

A description that was taken over from a text is prose, each line in the form of a
phrase. No other edit than one that sets a description changes that: tags are stored
beside the description, and an edit that fails changes nothing. So it holds from the
last reading on for as long as no description is set.
-/

namespace CommentBlock

namespace Comment

/-- All tags of the comment, the license among them. -/
def tags (comment : Comment) : List Tag :=
  comment.writtenTags ++ comment.license.toList.map .license

/-- Whether all texts that the comment stores are in form. -/
structure IsWellFormed (comment : Comment) : Prop where
  unbroken : ∀ line ∈ comment.description, '\r' ∉ line.chars ∧ '\n' ∉ line.chars
  required : ∀ tag ∈ comment.tags, ∀ text ∈ tag.requiredTexts, text.IsWord
  free : ∀ tag ∈ comment.tags, ∀ text ∈ tag.freeTexts, text.IsCollapsed

/-- Every comment is well formed. -/
theorem isWellFormed (comment : Comment) : comment.IsWellFormed where
  unbroken := fun line _ => line.not_mem_break
  required := fun tag _ => tag.forms_of_fields.1
  free := fun tag _ => tag.forms_of_fields.2

/-- The tags of a comment make up all of it but its description. -/
theorem insertAll_tags (comment : Comment) :
    empty.insertAll comment.tags = { comment with description := [] } := by
  rw [tags, insertAll_append, insertAll_writtenTags]
  cases comment.license with
  | none => simp [writtenContent, withoutLicense, insertAll_nil]
  | some value => simp [writtenContent, withoutLicense, insertAll_nil, insertAll_cons, insert]

/-- A line of prose has characters, these are collapsed, and the first of them is no
at sign. -/
theorem form_of_isProse (comment : Comment) (prose : comment.IsProse) :
    ∀ line ∈ comment.description,
      line.chars ≠ [] ∧ line.chars.IsCollapsed ∧ line.chars.head? ≠ some '@' := by
  intro line member
  obtain ⟨phrases, allProse, described⟩ := prose
  rw [described] at member
  obtain ⟨phrase, inside, rfl⟩ := List.mem_map.mp member
  cases phrase with
  | nil => exact absurd (allProse [] inside) (by decide)
  | cons word rest =>
    have sameHead : (Phrase.line (word :: rest)).chars.head? = word.chars.head? :=
      Phrase.head?_text word rest
    have noSign : word.beginsWithAt = false := by
      simpa [Phrase.isProse_cons] using allProse (word :: rest) inside
    obtain ⟨c, others, shape⟩ := List.exists_cons_of_ne_nil word.nonempty
    rw [shape, List.head?_cons] at sameHead
    refine ⟨?_, Phrase.isCollapsed_text (word :: rest), ?_⟩
    · intro noChars
      simp [noChars] at sameHead
    · rw [sameHead]
      rintro ⟨⟩
      simp [Word.beginsWithAt, shape] at noSign

end Comment

namespace Edit

/-- Whether the edit sets the description to a given text. -/
def describes : Edit → Bool
  | .create _ | .describe _ => true
  | _ => false

/-- Whether the edit takes over what a text holds. -/
def reads : Edit → Bool
  | .read .. | .reread _ => true
  | _ => false

/-- A reading gives what parsing gives. -/
theorem exists_parseAs_of_reads (comment parsed : Comment) (edit : Edit)
    (reading : edit.reads = true) (succeeded : edit.apply comment = .ok parsed) :
    ∃ mode text, Comment.parseAs mode text = .ok parsed := by
  have unwrapped : ∀ mode text,
      (Comment.parseAs mode text).mapError EditError.parse = .ok parsed →
        Comment.parseAs mode text = .ok parsed := by
    intro mode text mapped
    cases result : Comment.parseAs mode text <;> simp_all [Except.mapError]
  cases edit with
  | read mode text => exact ⟨mode, text, unwrapped mode text succeeded⟩
  | reread mode => exact ⟨mode, comment.source, unwrapped mode comment.source succeeded⟩
  | reset | create text | describe text | insert draft => simp [reads] at reading

/-- An edit that succeeds leads to its result. -/
theorem step_of_apply (comment changed : Comment) (edit : Edit)
    (succeeded : edit.apply comment = .ok changed) : step comment edit = changed := by
  rw [step, succeeded]

/-- An edit that fails changes nothing. -/
theorem step_of_error (comment : Comment) (edit : Edit) (error : EditError)
    (failed : edit.apply comment = .error error) : step comment edit = comment := by
  rw [step, failed]

/-- Prose stays through each edit that sets no description. -/
theorem isProse_step (comment : Comment) (edit : Edit) (noText : edit.describes = false)
    (prose : comment.IsProse) : (step comment edit).IsProse := by
  cases result : edit.apply comment with
  | error error => rwa [step_of_error comment edit error result]
  | ok changed =>
    rw [step_of_apply comment changed edit result]
    cases edit with
    | reset =>
      obtain rfl : Comment.empty = changed := Except.ok.inj result
      exact Comment.isProse_empty
    | insert draft =>
      cases built : draft.build with
      | error error => simp [apply, built] at result
      | ok tag =>
        obtain rfl : comment.insert tag = changed := by simpa [apply, built] using result
        rwa [Comment.IsProse, Comment.description_insert]
    | read mode text | reread mode =>
      obtain ⟨mode, text, parsed⟩ := exists_parseAs_of_reads comment changed _ rfl result
      exact Comment.isProse_of_parseAs mode text changed parsed
    | create text | describe text => simp [describes] at noText

/-- Prose stays through a history of such edits. -/
theorem isProse_foldl (comment : Comment) (edits : List Edit)
    (noText : ∀ edit ∈ edits, edit.describes = false) (prose : comment.IsProse) :
    (edits.foldl step comment).IsProse := by
  induction edits generalizing comment with
  | nil => exact prose
  | cons edit rest inductionHypothesis =>
    obtain ⟨first, others⟩ := List.forall_mem_cons.mp noText
    exact inductionHypothesis (step comment edit) others (isProse_step comment edit first prose)

/-- A draft that builds a tag is inserted as this tag. -/
theorem step_insert (comment : Comment) (draft : Draft) (tag : Tag)
    (built : draft.build = .ok tag) : step comment (.insert draft) = comment.insert tag := by
  apply step_of_apply
  rw [apply, built]

/-- Inserting the drafts of tags inserts the tags. -/
theorem foldl_step_drafts (comment : Comment) (tags : List Tag) :
    (tags.map fun tag => Edit.insert tag.draft).foldl step comment = comment.insertAll tags := by
  induction tags generalizing comment with
  | nil => rfl
  | cons tag rest inductionHypothesis =>
    rw [List.map_cons, List.foldl_cons, step_insert comment tag.draft tag tag.build_draft,
      inductionHypothesis, Comment.insertAll_cons]

/-- Every comment is reached: its description is set and its tags are inserted. -/
theorem exists_run_eq (comment : Comment) : ∃ edits, run edits = comment := by
  refine ⟨.describe (Text.ofEndedLines comment.description) ::
    comment.tags.map fun tag => Edit.insert tag.draft, ?_⟩
  have described : step .empty (.describe (Text.ofEndedLines comment.description)) =
      { description := comment.description } := by
    simp [step, apply, Comment.describe, Text.lines_ofEndedLines, Comment.empty]
  rw [run, List.foldl_cons, described, foldl_step_drafts, Comment.insertAll_eq,
    Comment.insertAll_tags]
  simp [Comment.append_eq, Comment.append]

/-- Every history leads to a comment whose texts are in form: an edit that inserts a
draft stores the texts of the draft in their normal form. If one of the edits took over
what a text holds and no later edit set a description, then each line of the description
has characters, has them in collapsed form and does not begin with an at sign.

The form of the texts is all that histories have in common, since every comment is where
some history leads. -/
theorem run_keeps_form (edits : List Edit) :
    (run edits).IsWellFormed ∧
      (∀ draft tag, draft.build = .ok tag →
        run (edits ++ [.insert draft]) = (run edits).insert tag ∧
          tag.requiredTexts = draft.requiredTexts ∧ tag.freeTexts = draft.freeTexts) ∧
      (∀ before reading after, edits = before ++ reading :: after → reading.reads = true →
        (∃ parsed, reading.apply (run before) = .ok parsed) →
          (∀ edit ∈ after, edit.describes = false) →
            ∀ line ∈ (run edits).description,
              line.chars ≠ [] ∧ line.chars.IsCollapsed ∧ line.chars.head? ≠ some '@') ∧
      ∀ comment, ∃ history, run history = comment := by
  refine ⟨(run edits).isWellFormed, ?_, ?_, exists_run_eq⟩
  · intro draft tag built
    have inserted : run (edits ++ [.insert draft]) = (run edits).insert tag := by
      rw [run, List.foldl_append]
      exact step_insert (run edits) draft tag built
    exact ⟨inserted, draft.texts_of_build tag built⟩
  · rintro before reading after rfl isReading ⟨parsed, succeeded⟩ noText
    apply Comment.form_of_isProse
    have reached : run (before ++ reading :: after) = after.foldl step parsed := by
      rw [run, List.foldl_append, List.foldl_cons]
      change after.foldl step (step (run before) reading) = _
      rw [step_of_apply (run before) parsed reading succeeded]
    obtain ⟨mode, text, taken⟩ := exists_parseAs_of_reads _ parsed reading isReading succeeded
    rw [reached]
    exact isProse_foldl parsed after noText (Comment.isProse_of_parseAs mode text parsed taken)

/-- A description with an at sign gives way to that of a text, and an insertion that is
refused behind it leaves the new one as it is. -/
theorem run_keeps_form_behind_reading :
    let created : Edit := .create "@todo ".toList
    let reading : Edit := .read .lenient " *  Sizes\tof it".toList
    let refused : Edit := .insert (.access [])
    let reached := run [created, reading, refused]
    reached.description.map Line.chars = ["Sizes of it".toList] ∧
      ∀ line ∈ reached.description,
        line.chars ≠ [] ∧ line.chars.IsCollapsed ∧ line.chars.head? ≠ some '@' := by
  intro created reading refused reached
  refine ⟨rfl, ?_⟩
  have form := (run_keeps_form [created, reading, refused]).2.2.1
  have noText : ∀ edit ∈ [refused], edit.describes = false := List.forall_mem_singleton.mpr rfl
  exact form [created] reading [refused] rfl rfl ⟨_, rfl⟩ noText

end Edit

end CommentBlock
