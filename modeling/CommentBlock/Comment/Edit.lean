import CommentBlock.Comment.Parser
import CommentBlock.Comment.Source

/-!
# Edits of comments

An edit is one request of someone who works on a comment: to start over, to
change the description, to insert a tag from its draft, or to take over what a
text holds, possibly the comment's own source. An edit that fails says why and
changes nothing, so a history of edits always leads to a comment.
-/

namespace CommentBlock

/-- One request to change a comment. -/
inductive Edit where
  | reset
  | create (text : Text)
  | describe (text : Text)
  | insert (draft : Draft)
  | read (mode : Mode) (text : Text)
  | reread (mode : Mode)
  deriving DecidableEq

/-- Why an edit failed. -/
inductive EditError where
  | field (error : FieldError)
  | parse (error : ParseError)
  deriving DecidableEq

namespace Edit

/-- The comment after the edit, or why there is none. -/
def apply (comment : Comment) : Edit → Except EditError Comment
  | .reset => .ok .empty
  | .create text => .ok (.ofDescription text)
  | .describe text => .ok (comment.describe text)
  | .insert draft =>
    match draft.build with
    | .error error => .error (.field error)
    | .ok tag => .ok (comment.insert tag)
  | .read mode text => (Comment.parseAs mode text).mapError .parse
  | .reread mode => (Comment.parseAs mode comment.source).mapError .parse

/-- The comment after the edit; the same comment if the edit fails. -/
def step (comment : Comment) (edit : Edit) : Comment :=
  match edit.apply comment with
  | .error _ => comment
  | .ok changed => changed

/-- The comment to which the edits lead from the empty one. -/
def run (edits : List Edit) : Comment := edits.foldl step .empty

end Edit

end CommentBlock
