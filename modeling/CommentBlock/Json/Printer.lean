import CommentBlock.Json.Basic

/-!
# The text of JSON values

One printer serves every layout. A layout says what stands before each item and
before the closing bracket, which depends on the depth of nesting, and what
stands after a colon. The compact layout has nothing in these places. The pretty
layout starts a line for each item, indents it by two spaces for each level and
puts a space after a colon. An array or object without content is two brackets
in every layout.

A string is written in double quotes. The double quote, the backslash and the
characters below U+0020 are escaped; all others stand for themselves.
-/

namespace CommentBlock.Json

/-- What is written between the tokens of a value. -/
structure Layout where
  beforeItem : Nat → Text
  afterColon : Text

namespace Layout

/-- Nothing between tokens. -/
def compact : Layout where
  beforeItem _ := []
  afterColon := []

/-- A line for each item, indented by two spaces for each level. -/
def pretty : Layout where
  beforeItem depth := '\n' :: List.replicate (2 * depth) ' '
  afterColon := [' ']

end Layout

/-- What stands for the character in a string. The last escape has four
hexadecimal digits, of which the first two are zero. -/
def escapedChar (c : Char) : Text :=
  match c with
  | '"' => ['\\', '"']
  | '\\' => ['\\', '\\']
  | '\x08' => ['\\', 'b']
  | '\x0C' => ['\\', 'f']
  | '\n' => ['\\', 'n']
  | '\r' => ['\\', 'r']
  | '\t' => ['\\', 't']
  | c =>
    if c.toNat < 0x20 then
      ['\\', 'u', '0', '0', Nat.digitChar (c.toNat / 16), Nat.digitChar (c.toNat % 16)]
    else [c]

/-- The text of a string. -/
def stringLiteral (value : Text) : Text := '"' :: value.flatMap escapedChar ++ ['"']

mutual

/-- The text of the value at a depth of nesting. -/
def print (layout : Layout) (depth : Nat) : Json → Text
  | .null => "null".toList
  | .string value => stringLiteral value
  | .array [] => ['[', ']']
  | .array (item :: items) =>
    '[' :: layout.beforeItem (depth + 1) ++ print layout (depth + 1) item ++
      printItems layout (depth + 1) items ++ layout.beforeItem depth ++ [']']
  | .object [] => ['\x7b', '\x7d']
  | .object ((key, value) :: members) =>
    '\x7b' :: layout.beforeItem (depth + 1) ++ stringLiteral key ++ ':' :: layout.afterColon ++
      print layout (depth + 1) value ++ printMembers layout (depth + 1) members ++
      layout.beforeItem depth ++ ['\x7d']

/-- The text of the items after the first. -/
def printItems (layout : Layout) (depth : Nat) : List Json → Text
  | [] => []
  | item :: items =>
    ',' :: layout.beforeItem depth ++ print layout depth item ++ printItems layout depth items

/-- The text of the members after the first. -/
def printMembers (layout : Layout) (depth : Nat) : List (Text × Json) → Text
  | [] => []
  | (key, value) :: members =>
    ',' :: layout.beforeItem depth ++ stringLiteral key ++ ':' :: layout.afterColon ++
      print layout depth value ++ printMembers layout depth members

end

/-- The text without anything between tokens. -/
def compact (value : Json) : Text := value.print .compact 0

/-- The text with a line for each item. -/
def pretty (value : Json) : Text := value.print .pretty 0

end CommentBlock.Json
