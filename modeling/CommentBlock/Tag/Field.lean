import CommentBlock.Tag.Kind
import CommentBlock.Text.Quoted

/-!
# Required fields

Types, variable names and access levels are single words. A supplied text is a
usable value of such a field when exactly one word is left of it after trimming.
A variable name may be supplied with or without its dollar sign: one is dropped
after trimming, and what follows it is trimmed again.

The two ways to miss are kept apart. A text without words is a missing field; a
text with several words is refused together with its trimmed value, which the
message shows in quoted form.
-/

namespace CommentBlock

/-- A field that has to be a single word. -/
inductive Field where
  | type
  | variableName
  | level
  deriving DecidableEq

/-- What messages call the field. -/
def Field.label : Field → Text
  | .type => "type".toList
  | .variableName => "variable name".toList
  | .level => "level".toList

/-- Why a text is no value of a field of a tag of some kind. -/
inductive FieldError where
  | missing (kind : Kind) (field : Field)
  | severalWords (kind : Kind) (field : Field) (value : Text)
  deriving DecidableEq

/-- The error in words. -/
def FieldError.message : FieldError → Text
  | .missing kind field => kind.sign.chars ++ " needs a ".toList ++ field.label
  | .severalWords kind field value =>
    kind.sign.chars ++ ' ' :: field.label ++ " must be a single word, got ".toList ++ value.quoted

/-- The single word of the text. -/
def Field.read (field : Field) (kind : Kind) (value : Text) : Except FieldError Word :=
  match value.words with
  | [] => .error (.missing kind field)
  | [word] => .ok word
  | _ => .error (.severalWords kind field value.trim)

/-- The text without one dollar sign at its front. -/
def Text.withoutDollar : Text → Text
  | '$' :: rest => rest
  | text => text

/-- The single word of a variable name, less one dollar sign. -/
def Field.readName (kind : Kind) (value : Text) : Except FieldError Word :=
  Field.variableName.read kind value.trim.withoutDollar

end CommentBlock
