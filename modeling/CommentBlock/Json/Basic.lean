import CommentBlock.Text.Blank

/-!
# JSON values without numbers

A value is null, a string, an array or an object; truth values and numbers do not
occur in what is written here. The members of an object keep their order, and
nothing prevents a key from occurring twice.
-/

namespace CommentBlock

/-- A JSON value. -/
inductive Json where
  | null
  | string (value : Text)
  | array (items : List Json)
  | object (members : List (Text × Json))

/-- The value, or null where there is none. -/
def Json.ofOption : Option Json → Json
  | none => .null
  | some value => value

end CommentBlock
