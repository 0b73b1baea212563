import CommentBlock.Text.Hidden

/-!
# Quoted text

The quoted form of a text shows every one of its characters on a single line. It
stands in double quotes. A double quote and a backslash inside are preceded by a
backslash; NUL, tab, CR and LF are written by a letter or digit after a
backslash; any other hidden character is written by its code point in lower-case
hexadecimal digits between braces. All other characters stand for themselves, a
single quote among them.
-/

namespace CommentBlock

/-- The code point in hexadecimal digits, without leading zeros. -/
def hexDigits (c : Char) : Text := Nat.toDigits 16 c.toNat

/-- What stands for the character between the quotes. -/
def quotedChar : Char → Text
  | '\x00' => ['\\', '0']
  | '\t' => ['\\', 't']
  | '\r' => ['\\', 'r']
  | '\n' => ['\\', 'n']
  | '"' => ['\\', '"']
  | '\\' => ['\\', '\\']
  | c => if isHidden c then ['\\', 'u', '\x7b'] ++ hexDigits c ++ ['\x7d'] else [c]

/-- The text in double quotes with its characters made visible. -/
def Text.quoted (text : Text) : Text := '"' :: text.flatMap quotedChar ++ ['"']

end CommentBlock
